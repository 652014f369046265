import OsterLib.Serialization.Truncation

/-!
# Several values in one call

The variadic calls decode one destination after the other with the same serializer. When it holds the
encodings of as many values, all destinations are filled (`Fills`); when it holds a strict prefix of them,
the first destination that is cut ends the call (`RunsShort`).
-/

namespace OsterLib.Serialization
open StreamSerializer SerialType

/-- The fold over `&&` of the variadic `deserialize`: one destination after the other, until the first
    code that is not `NONE`. -/
def deserializeFields (f : Format) {α : Type} (load : α → Byte) : List Item → StreamSerializer α →
    Except Fault (SerializationEC × List Item × StreamSerializer α)
  | [], s => .ok (.none, [], s)
  | ⟨o, value⟩ :: values, s =>
    match o.deserialize f load value s with
    | .error fault => .error fault
    | .ok (.none, value, s) =>
      match deserializeFields f load values s with
      | .error fault => .error fault
      | .ok (code, values, s) => .ok (code, ⟨o, value⟩ :: values, s)
    | .ok (code, value, s) => .ok (code, ⟨o, value⟩ :: values, s)

/-- The concatenated encodings of values. -/
def encodings (f : Format) (items : List Item) : List Byte :=
  (items.map fun item => item.1.encode f item.2).flatten

@[simp] lemma encodings_cons (f : Format) (item : Item) (items : List Item) :
    encodings f (item :: items) = item.1.encode f item.2 ++ encodings f items := rfl

@[simp] lemma encodings_append (f : Format) (items others : List Item) :
    encodings f (items ++ others) = encodings f items ++ encodings f others := by
  simp [encodings]

/-- The default constructed destination of a value. -/
def initial (item : Item) : Item := ⟨item.1, item.1.init⟩

section fields
variable {f : Format} {α : Type} {load : α → Byte} {s t : StreamSerializer α}

/-- The destinations are filled with equal values, and what is behind their encodings is left. -/
def Fills (f : Format) (load : α → Byte) (s : StreamSerializer α) (items dests : List Item)
    (rest : List Byte) : Prop :=
  ∃ values t, deserializeFields f load dests s = .ok (.none, values, t) ∧
    List.Forall₂ Item.Equal values items ∧ t.Ready ∧ t.level = s.level ∧ t.left load = rest

/-- There are too few bytes for the destinations. -/
def RunsShort (f : Format) (load : α → Byte) (s : StreamSerializer α) (dests : List Item) : Prop :=
  ∃ values t, deserializeFields f load dests s = .ok (.bufferSizeLesser, values, t) ∧
    values ≠ [] ∧ t.mbv.Valid ∧ t.level = s.level

/-- A destination that is filled, before others that are. -/
lemma Fills.cons {o : SerialType} {x y dest : o.Val} {items dests : List Item} {rest : List Byte}
    (run : o.deserialize f load dest s = .ok (.none, y, t)) (equal : Item.Equal ⟨o, y⟩ ⟨o, x⟩)
    (level : t.level = s.level) (later : Fills f load t items dests rest) :
    Fills f load s (⟨o, x⟩ :: items) (⟨o, dest⟩ :: dests) rest := by
  obtain ⟨values, u, runs, equals, ready, same, left⟩ := later
  refine ⟨⟨o, y⟩ :: values, u, ?_, .cons equal equals, ready, same.trans level, left⟩
  rw [deserializeFields, run]
  simp only [runs]

lemma RunsShort.first {o : SerialType} {y dest : o.Val} (dests : List Item)
    (run : o.deserialize f load dest s = .ok (.bufferSizeLesser, y, t))
    (fails : Fails (s.level + 1) s t) : RunsShort f load s (⟨o, dest⟩ :: dests) := by
  refine ⟨⟨o, y⟩ :: dests, t, ?_, List.cons_ne_nil _ _, fails.valid, fails.level⟩
  rw [deserializeFields, run]

lemma RunsShort.cons {o : SerialType} {y dest : o.Val} {dests : List Item}
    (run : o.deserialize f load dest s = .ok (.none, y, t)) (level : t.level = s.level)
    (later : RunsShort f load t dests) : RunsShort f load s (⟨o, dest⟩ :: dests) := by
  obtain ⟨values, u, runs, _, valid, same⟩ := later
  refine ⟨⟨o, y⟩ :: values, u, ?_, List.cons_ne_nil _ _, valid, same.trans level⟩
  rw [deserializeFields, run]
  simp only [runs]

/-- Aligned values are decoded into fresh destinations. -/
lemma aligned_fills (symmetric : f.Symmetric) {items : List Item}
    (aligned : ∀ item ∈ items, Aligned 0 True item.1 item.2) (ready : s.Ready) (caught : CaughtUp 0 s)
    {rest : List Byte} (left : s.left load = encodings f items ++ rest) :
    Fills f load s items (items.map initial) rest := by
  induction items generalizing s with
  | nil => exact ⟨[], s, rfl, .nil, ready, rfl, left⟩
  | cons item items ih =>
    obtain ⟨o, x⟩ := item
    rw [encodings_cons, List.append_assoc] at left
    obtain ⟨y, copy⟩ := (aligned _ List.mem_cons_self).copies symmetric
    obtain ⟨t, run, read⟩ := copy.decodes load s _ ready caught left
    have later := ih (fun other mem => aligned other (List.mem_cons_of_mem _ mem)) read.ready
      (caught.reads read.toReads) (read.rest left)
    exact .cons run (.same (copy.equal trivial)) read.level later

lemma aligned_runsShort (symmetric : f.Symmetric) {items : List Item}
    (aligned : ∀ item ∈ items, Aligned 0 True item.1 item.2) (ready : s.Ready) (caught : CaughtUp 0 s)
    {q : List Byte} (missing : q ≠ []) (cut : s.left load ++ q = encodings f items) :
    RunsShort f load s (items.map initial) := by
  induction items generalizing s with
  | nil => exact absurd (List.append_eq_nil_iff.1 cut).2 missing
  | cons item items ih =>
    obtain ⟨o, x⟩ := item
    have here := aligned _ List.mem_cons_self
    rcases cut_append cut with ⟨r, short, first⟩ | ⟨behind, left, cut⟩
    · obtain ⟨y, t, run, fails⟩ := here.notices symmetric load s r ready caught short first
      exact .first _ run fails
    · obtain ⟨y, copy⟩ := here.copies symmetric
      obtain ⟨t, run, read⟩ := copy.decodes load s _ ready caught left
      rw [← read.rest left] at cut
      exact .cons run read.level (ih (fun other mem => aligned other (List.mem_cons_of_mem _ mem))
        read.ready (caught.reads read.toReads) cut)

end fields
end OsterLib.Serialization
