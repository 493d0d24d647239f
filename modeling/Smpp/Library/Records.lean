import Smpp.Library.View

/-!
# Sequences of records

A format whose texts are records one behind the other, read by a loop that goes on while
there is room for the header of another record.

Main results:

- Theorem {lit}`readAll_encodeAll`: the loop reads a sequence of records and stops in front
  of a rest that is too short for a header.
- Theorem {lit}`readAll_cases`: there is no other way for the loop to return; it fails
  exactly on a malformed text.
-/

/-- A format of records: the decoder of one record, the text of a record, and which
records and which texts it is about. -/
structure RecordFormat (ε β ρ : Type) where
  headerLength : Nat
  read : View ε β ρ
  encode : ρ → List β
  Valid : ρ → Prop
  /-- Texts with a header that do not start with a valid record. -/
  Rejected : List β → Prop
  /-- What the decoder fails with. -/
  Failure : ε → Prop
  header_pos : 0 < headerLength
  header_le : ∀ r, headerLength ≤ (encode r).length
  reads : ∀ r, Valid r → View.Reads read (encode r) r
  rejects : ∀ view, Rejected view → ∃ e, Failure e ∧ read.run view = .error e view
  complete : ∀ view, headerLength ≤ view.length →
    (∃ r rest, Valid r ∧ view = encode r ++ rest) ∨ Rejected view

namespace RecordFormat

variable {ε β ρ : Type} {F : RecordFormat ε β ρ} {view tail : List β} {records : List ρ}

/-- The text of a sequence of records. -/
def encodeAll (F : RecordFormat ε β ρ) (records : List ρ) : List β :=
  records.flatMap F.encode

/-- All records of the sequence are valid. -/
def ValidAll (F : RecordFormat ε β ρ) (records : List ρ) : Prop :=
  ∀ r ∈ records, F.Valid r

/-- Somewhere behind a sequence of valid records a text begins that is rejected. -/
def Malformed (F : RecordFormat ε β ρ) (view : List β) : Prop :=
  ∃ records rest, F.ValidAll records ∧ view = F.encodeAll records ++ rest ∧
    F.headerLength ≤ rest.length ∧ F.Rejected rest

@[simp]
theorem encodeAll_nil : F.encodeAll [] = [] :=
  rfl

@[simp]
theorem encodeAll_cons (r : ρ) (records : List ρ) :
    F.encodeAll (r :: records) = F.encode r ++ F.encodeAll records :=
  rfl

/-- Reading a record shortens the view. -/
theorem length_lt_of_read {r : ρ} {rest : List β} (hheader : F.headerLength ≤ view.length)
    (hrun : F.read.run view = .ok r rest) : rest.length < view.length := by
  rcases F.complete view hheader with ⟨r', rest', hvalid, rfl⟩ | hrejected
  · rw [F.reads r' hvalid] at hrun
    cases hrun
    have hpos := F.header_pos
    have hle := F.header_le r
    rw [List.length_append]
    omega
  · rcases F.rejects view hrejected with ⟨e, _, herror⟩
    rw [herror] at hrun
    cases hrun

/-- Read records while there is room for a header; what is left is returned as well. -/
def readAll (F : RecordFormat ε β ρ) (view : List β) : Except ε (List ρ × List β) :=
  if hheader : F.headerLength ≤ view.length then
    match hrun : F.read.run view with
    | .ok r rest =>
        have := length_lt_of_read hheader hrun
        match F.readAll rest with
        | .ok (records, tail) => .ok (r :: records, tail)
        | .error e => .error e
    | .error e _ => .error e
  else
    .ok ([], view)
termination_by view.length

theorem readAll_of_short (hshort : view.length < F.headerLength) :
    F.readAll view = .ok ([], view) := by
  rw [readAll, dif_neg (by omega)]

/-- A record at the front is the first one read. -/
theorem readAll_encode {r : ρ} (hvalid : F.Valid r) (rest : List β) :
    F.readAll (F.encode r ++ rest) =
      match F.readAll rest with
      | .ok (records, tail) => .ok (r :: records, tail)
      | .error e => .error e := by
  have hle := F.header_le r
  have hreads := F.reads r hvalid rest
  rw [readAll, dif_pos (by rw [List.length_append]; omega)]
  split
  · rename_i hrun
    rw [hreads] at hrun
    cases hrun
    rfl
  · rename_i hrun
    rw [hreads] at hrun
    cases hrun

/-- The loop reads every record of a sequence and leaves a short rest unread. -/
theorem readAll_encodeAll (hvalid : F.ValidAll records) (htail : tail.length < F.headerLength) :
    F.readAll (F.encodeAll records ++ tail) = .ok (records, tail) := by
  induction records with
  | nil => exact readAll_of_short htail
  | cons r records ih =>
      have hrest := ih fun r' hmem => hvalid r' (List.mem_cons_of_mem _ hmem)
      rw [encodeAll_cons, List.append_assoc, readAll_encode (hvalid r List.mem_cons_self), hrest]

/-- The loop fails on a malformed text. -/
theorem readAll_of_malformed (hmalformed : F.Malformed view) :
    ∃ e, F.Failure e ∧ F.readAll view = .error e := by
  rcases hmalformed with ⟨records, rest, hvalid, rfl, hheader, hrejected⟩
  induction records with
  | nil =>
      rcases F.rejects rest hrejected with ⟨e, hfailure, herror⟩
      refine ⟨e, hfailure, ?_⟩
      rw [encodeAll_nil, List.nil_append, readAll, dif_pos hheader]
      split
      · rename_i hrun
        rw [herror] at hrun
        cases hrun
      · rename_i hrun
        rw [herror] at hrun
        cases hrun
        rfl
  | cons r records ih =>
      rcases ih fun r' hmem => hvalid r' (List.mem_cons_of_mem _ hmem) with
        ⟨e, hfailure, herror⟩
      refine ⟨e, hfailure, ?_⟩
      rw [encodeAll_cons, List.append_assoc, readAll_encode (hvalid r List.mem_cons_self), herror]

/-- Every text is a sequence of records with a short rest, or it is malformed. -/
theorem readAll_cases (F : RecordFormat ε β ρ) (view : List β) :
    (∃ records tail, F.ValidAll records ∧ tail.length < F.headerLength ∧
        view = F.encodeAll records ++ tail) ∨ F.Malformed view := by
  induction hn : view.length using Nat.strongRecOn generalizing view with
  | ind n ih =>
      by_cases hheader : F.headerLength ≤ view.length
      · rcases F.complete view hheader with ⟨r, rest, hvalid, rfl⟩ | hrejected
        · have hpos := F.header_pos
          have hle := F.header_le r
          have hcons : ∀ {records}, F.ValidAll records → F.ValidAll (r :: records) :=
            fun hrest => List.forall_mem_cons.mpr ⟨hvalid, hrest⟩
          rw [List.length_append] at hn
          rcases ih rest.length (by omega) rest rfl with
            ⟨records, tail, hrest, htail, rfl⟩ | ⟨records, bad, hrest, rfl, hbad⟩
          · exact Or.inl ⟨r :: records, tail, hcons hrest, htail, by simp⟩
          · exact Or.inr ⟨r :: records, bad, hcons hrest, by simp, hbad⟩
        · exact Or.inr ⟨[], view, by simp [ValidAll], rfl, hheader, hrejected⟩
      · exact Or.inl ⟨[], view, by simp [ValidAll], by omega, rfl⟩

/-- What the loop reads without failing is a sequence of records with a short rest. -/
theorem eq_of_readAll (hread : F.readAll view = .ok (records, tail)) :
    F.ValidAll records ∧ tail.length < F.headerLength ∧ view = F.encodeAll records ++ tail := by
  rcases F.readAll_cases view with ⟨records', tail', hvalid, htail, rfl⟩ | hmalformed
  · rw [readAll_encodeAll hvalid htail] at hread
    cases hread
    exact ⟨hvalid, htail, rfl⟩
  · rcases readAll_of_malformed hmalformed with ⟨e, _, herror⟩
    rw [herror] at hread
    cases hread

end RecordFormat
