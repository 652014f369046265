import OsterLib.Lib.Layout
import OsterLib.Serialization.Parser
import OsterLib.Serialization.Truncation

/-!
# The length that bytes announce

What the decoder takes from the stream is announced by the bytes themselves: a flag announces a value behind it, a size
as many elements, an index one of the alternatives. `Shape.layout` follows these announcements. A duration always has
eight bytes in it, also in an array that the encoder has copied as memory, and sizes and indices are in the order in
which they are read. A decoder that holds a strict prefix of an encoding notices that exactly if the encoding does not
announce less than it has (`prefix_noticed_iff`).
-/

namespace OsterLib.Serialization
open OsterLib.Lib StreamSerializer SerialType

/-- A flag, and a value behind one that is set. -/
def layoutMaybe (f : Format) (value : Layout Byte) : Layout Byte :=
  .items 1 fun bytes => if readFlag f bytes then value else .done

/-- A size, and as many items. -/
def layoutRange (f : Format) (item : Layout Byte) : Layout Byte :=
  .items 8 fun bytes => item.times (UInt64.ofNat (readWord f bytes)).toNat

/-- The bytes of a value, as the decoder lays them out. -/
def Shape.layout (f : Format) {o : SerialType} (shape : Shape o) : Layout Byte :=
  match shape with
  | word n => .items n fun _ => .done
  | bool => .items 1 fun _ => .done
  | duration .. => .items 8 fun _ => .done
  | empty => .done
  | pair first second => (first.layout f).andThen (second.layout f)
  | optional inner | pointer inner => layoutMaybe f (inner.layout f)
  | @variant n _ inner => .items 8 fun bytes =>
      if lt : (UInt64.ofNat (readWord f bytes)).toNat < n + 1 then (inner ⟨_, lt⟩).layout f else .broken
  | sequence inner | associative _ inner | forwardList inner => layoutRange f (inner.layout f)
  | @array _ n _ inner => (inner.layout f).times n

/-! ## The layout and the parser -/

section layout
variable {f : Format} {V : Type}

/-- The layout of what is parsed from bytes. -/
abbrev LayoutOf (p : ByteParser V) (q : Layout Byte) : Prop := Layout.Of .bufferSizeLesser .unmatchedType p q

/-- A number, by which the parser behind it is chosen. -/
lemma layoutOf_number {W : Type} (n : Nat) (ofBytes : List Byte → V) {next : V → ByteParser W}
    {later : List Byte → Layout Byte} (chosen : ∀ bytes, LayoutOf (next (ofBytes bytes)) (later bytes)) :
    LayoutOf ((parseNumber n ofBytes).andThen next) (.items n later) := by
  intro bytes
  unfold Parser.andThen parseNumber Layout.items
  by_cases short : bytes.length < n
  · rw [if_pos short, if_pos short]
    exact .short
  · rw [if_neg short, if_neg short]
    exact chosen _ _

/-- A number is laid out as its bytes. -/
lemma layoutOf_word (n : Nat) (ofBytes : List Byte → V) :
    LayoutOf (parseNumber n ofBytes) (.items n fun _ => .done) := by
  intro bytes
  unfold parseNumber Layout.items
  split
  · exact .short
  · exact .done _ _

/-- An optional is laid out as its flag and its value. -/
lemma layoutOf_maybe {value : ByteParser V} {laid : Layout Byte} (inner : LayoutOf value laid) :
    LayoutOf (parseMaybe f value) (layoutMaybe f laid) := by
  refine layoutOf_number 1 (readFlag f) fun bytes => ?_
  cases readFlag f bytes with
  | false => exact fun rest => .done none rest
  | true => exact inner.map some

/-- A range is laid out as its size and its elements. -/
lemma layoutOf_range {item : ByteParser V} {laid : Layout Byte} (inner : LayoutOf item laid)
    (insert : List V → V → List V) : LayoutOf (parseRange f item insert) (layoutRange f laid) :=
  layoutOf_number 8 _ fun _ => inner.times insert _ []

/-- What is parsed is what is laid out. -/
lemma Shape.layoutOf (f : Format) {o : SerialType} (shape : Shape o) : LayoutOf (shape.parse f) (shape.layout f) := by
  induction shape with
  | word n => exact layoutOf_word n _
  | bool => exact layoutOf_word 1 _
  | duration n toNanoseconds ofNanoseconds => exact (layoutOf_word 8 _).map ofNanoseconds
  | empty => exact fun bytes => .done () bytes
  | pair first second ihFirst ihSecond => exact ihFirst.andThen fun x => ihSecond.map fun y => (x, y)
  | optional inner ih => exact layoutOf_maybe ih
  | pointer inner ih => exact layoutOf_maybe ih
  | @variant n alternatives inner ih =>
    refine layoutOf_number 8 _ fun bytes => ?_
    by_cases lt : (UInt64.ofNat (readWord f bytes)).toNat < n + 1
    · simp only [dif_pos lt]
      exact (ih _).map _
    · simp only [dif_neg lt]
      exact fun rest => .broken rest
  | sequence inner ih => exact layoutOf_range ih pushBack
  | associative keys inner ih => exact layoutOf_range ih keys.insert
  | forwardList inner ih => exact layoutOf_range ih pushBack
  | @array elem n small inner ih => exact (ih.times pushBack n []).map _

/-- The layout of an optional is delimited if that of its value is. -/
lemma delimited_maybe {laid : Layout Byte} (inner : laid.Delimited) : (layoutMaybe f laid).Delimited := by
  refine .items fun bytes => ?_
  cases readFlag f bytes with
  | false => exact Layout.delimited_done
  | true => exact inner

/-- The layout of a range is delimited if that of its elements is. -/
lemma delimited_range {laid : Layout Byte} (inner : laid.Delimited) : (layoutRange f laid).Delimited :=
  .items fun _ => inner.times _

/-- What is announced does not depend on the bytes behind it. -/
lemma Shape.delimited (f : Format) {o : SerialType} (shape : Shape o) : (shape.layout f).Delimited := by
  induction shape with
  | word n => exact .items fun _ => Layout.delimited_done
  | bool => exact .items fun _ => Layout.delimited_done
  | duration n toNanoseconds ofNanoseconds => exact .items fun _ => Layout.delimited_done
  | empty => exact Layout.delimited_done
  | pair first second ihFirst ihSecond => exact ihFirst.andThen ihSecond
  | optional inner ih => exact delimited_maybe ih
  | pointer inner ih => exact delimited_maybe ih
  | variant inner ih =>
    refine .items fun bytes => ?_
    split
    · exact ih _
    · exact Layout.delimited_broken
  | sequence inner ih => exact delimited_range ih
  | associative keys inner ih => exact delimited_range ih
  | forwardList inner ih => exact delimited_range ih
  | array small inner ih => exact ih.times _

end layout

/-! ## Truncated encodings -/

/-- Pushes do not begin a decode. -/
lemma reached_pushed (spans : List (List Byte)) {pushed : Nat} {s : StreamSerializer Byte}
    (reached : Reached id pushed true s) : ∃ pushed, Reached id pushed true (spans.foldl pushView s) := by
  induction spans generalizing pushed s with
  | nil => exact ⟨pushed, reached⟩
  | cons span spans ih => exact ih (.push span reached)

/-- The decode of a default constructed object from spans lacks bytes where their layout does. -/
lemma Shape.short_iff (f : Format) {o : SerialType} (shape : Shape o) (spans : List (List Byte)) :
    (∃ y s, o.deserialize f id o.init (spans.foldl pushView {}) = .ok (.bufferSizeLesser, y, s)) ↔
      shape.layout f spans.flatten = none := by
  obtain ⟨pushed, reached⟩ := reached_pushed spans .start
  have fresh : ({} : StreamSerializer Byte).Ready := ⟨MultiBufferView.valid_empty, fun _ _ => rfl⟩
  obtain ⟨_, _, unread⟩ := pushViews fresh ⟨rfl, rfl⟩ spans
  have left : (spans.foldl pushView {}).left id = spans.flatten := by
    rw [StreamSerializer.left, List.map_id, unread]
    rfl
  have steady := reached.steady
  have decode := shape.parsesAs f id _ steady.valid (steady.direct rfl).1
  have laid := shape.layoutOf f spans.flatten
  rw [left] at decode
  generalize shape.parse f spans.flatten = parsed at decode laid
  generalize shape.layout f spans.flatten = layout at laid
  cases laid with
  | done y rest =>
    obtain ⟨t, run, _⟩ := decode
    refine iff_of_false ?_ (Option.some_ne_none _)
    rintro ⟨z, u, short⟩
    cases run.symm.trans short
  | broken rest =>
    obtain ⟨_, y, t, run, _⟩ := decode
    refine iff_of_false ?_ (Option.some_ne_none _)
    rintro ⟨z, u, short⟩
    cases run.symm.trans short
  | short =>
    obtain ⟨_, y, t, run, _⟩ := decode
    exact iff_of_true ⟨y, t, run⟩ rfl

/-- A strict prefix of the encoding of an aligned value, pushed in any spans into a fresh serializer, is
    not decoded. -/
lemma prefix_noticed {f : Format} (symmetric : f.Symmetric) {o : SerialType} {x : o.Val}
    (aligned : Aligned 0 False o x) (spans : List (List Byte)) {q : List Byte} (missing : q ≠ [])
    (cut : spans.flatten ++ q = o.encode f x) :
    ∃ y s, o.deserialize f id o.init (spans.foldl pushView {}) = .ok (.bufferSizeLesser, y, s) := by
  have fresh : ({} : StreamSerializer Byte).Ready := ⟨MultiBufferView.valid_empty, fun _ _ => rfl⟩
  obtain ⟨ready, idle, unread⟩ := pushViews fresh ⟨rfl, rfl⟩ spans
  have left : (spans.foldl pushView {}).left id = spans.flatten := by
    rw [StreamSerializer.left, List.map_id, unread]
    rfl
  obtain ⟨y, s, run, _⟩ := aligned.notices symmetric id (spans.foldl pushView {}) q ready
    (Nat.le_of_eq idle.lag) missing (left.symm ▸ cut)
  exact ⟨y, s, run⟩

/-- The encoding of an aligned value announces all that it has. -/
lemma Aligned.announced {f : Format} (symmetric : f.Symmetric) {o : SerialType} {x : o.Val}
    (aligned : Aligned 0 False o x) (shape : Shape o) {value : Bool} {rest : List Byte}
    (laid : shape.layout f (o.encode f x) = some (value, rest)) : rest = [] := by
  refine ((shape.delimited f).prefix_iff _).1 (fun front q missing cut => ?_) value rest laid
  have short := prefix_noticed symmetric aligned [front] missing (by rw [List.flatten_singleton, cut])
  rwa [shape.short_iff, List.flatten_singleton] at short

/-- A host that swaps the bytes of a number only when it reads them notices that one is missing. -/
example : (Shape.word 2).layout ⟨false, false⟩ [0x12, 0x34] = some (true, []) := rfl

end OsterLib.Serialization
