import Smpp.Library.Transducer

/-!
# Words with an escape letter

One letter of an alphabet, the escape, stands for nothing: it takes the letter behind it into
a second alphabet.  A word is read from left to right as letters that stand for themselves and
escapes with a letter, whichever it is; an escape at the end has no letter.

Main results:

- Theorem {lit}`eq_spell_tokens`: a word is spelled by its tokens and, if it ends in an
  unpaired escape, this escape.
- Theorems {lit}`output_scanner` and {lit}`after_scanner`: a scanner with one flag finds the
  tokens, and the flag is left set by an unpaired escape.
- Theorem {lit}`tokens_append`: the tokens of a concatenation are those of its parts unless
  the first one ends in an unpaired escape.
-/

/-- A letter that stands for itself, or a letter behind an escape. -/
inductive EscapeToken (α : Type) where
  | plain (c : α)
  | escaped (c : α)
deriving DecidableEq, Repr

namespace EscapeCode

variable {α : Type} [DecidableEq α] (esc : α)

/-- The letters of a token. -/
def spell : EscapeToken α → List α
  | .plain c => [c]
  | .escaped c => [esc, c]

/-- The tokens of a word, from left to right. -/
def tokens : List α → List (EscapeToken α)
  | [] => []
  | [c] => if c = esc then [] else [.plain c]
  | c :: d :: w => if c = esc then .escaped d :: tokens w else .plain c :: tokens (d :: w)

/-- The last letter of a word is an escape that has not been escaped itself. -/
def Unpaired : List α → Prop
  | [] => False
  | [c] => c = esc
  | c :: d :: w => if c = esc then Unpaired w else Unpaired (d :: w)

/-- The scanner: its flag is set behind an escape that waits for its letter. -/
def scanner : Transducer Bool α (EscapeToken α) where
  next pending c := !pending && decide (c = esc)
  emit pending c :=
    if pending then [.escaped c] else if c = esc then [] else [.plain c]

/-- The tokens spell the word; only an unpaired escape is missing. -/
theorem eq_spell_tokens (w : List α) :
    (Unpaired esc w → w = (tokens esc w).flatMap (spell esc) ++ [esc]) ∧
      (¬ Unpaired esc w → w = (tokens esc w).flatMap (spell esc)) := by
  induction w using tokens.induct esc with
  | case1 => exact ⟨False.elim, fun _ => rfl⟩
  | case2 => simp [Unpaired, tokens]
  | case3 c hc => simp [Unpaired, tokens, hc, spell]
  | case4 d w ih =>
      simp only [Unpaired, tokens, if_true, List.flatMap_cons, spell, List.cons_append,
        List.nil_append, List.cons.injEq, true_and]
      exact ih
  | case5 c d w hc ih =>
      simp only [Unpaired, tokens, if_neg hc, List.flatMap_cons, spell, List.cons_append,
        List.nil_append, List.cons.injEq, true_and]
      exact ih

/-- No token is an escape that stands for itself. -/
theorem plain_notMem_tokens (w : List α) : .plain esc ∉ tokens esc w := by
  induction w using tokens.induct esc with
  | case1 | case2 => simp [tokens]
  | case3 c hc => simpa [tokens, hc] using Ne.symm hc
  | case4 d w ih => simpa [tokens] using ih
  | case5 c d w hc ih =>
      simp only [tokens, if_neg hc, List.mem_cons, EscapeToken.plain.injEq, not_or]
      exact ⟨Ne.symm hc, ih⟩

theorem next_scanner_self : (scanner esc).next false esc = true := by
  simp [scanner]

theorem next_scanner_of_ne {c : α} (hc : c ≠ esc) : (scanner esc).next false c = false := by
  simp [scanner, hc]

theorem next_scanner_pending (c : α) : (scanner esc).next true c = false :=
  rfl

theorem emit_scanner_self : (scanner esc).emit false esc = [] := by
  simp [scanner]

theorem emit_scanner_of_ne {c : α} (hc : c ≠ esc) :
    (scanner esc).emit false c = [.plain c] := by
  simp [scanner, hc]

theorem emit_scanner_pending (c : α) : (scanner esc).emit true c = [.escaped c] :=
  rfl

/-- The scanner finds the tokens. -/
theorem output_scanner (w : List α) : (scanner esc).output false w = tokens esc w := by
  induction w using tokens.induct esc with
  | case1 => rfl
  | case2 => simp [emit_scanner_self, tokens]
  | case3 c hc => simp [emit_scanner_of_ne esc hc, tokens, hc]
  | case4 d w ih =>
      rw [Transducer.output_cons, Transducer.output_cons, emit_scanner_self, next_scanner_self,
        emit_scanner_pending, next_scanner_pending, ih, tokens, if_pos rfl]
      rfl
  | case5 c d w hc ih =>
      rw [Transducer.output_cons, emit_scanner_of_ne esc hc, next_scanner_of_ne esc hc, ih,
        tokens, if_neg hc]
      rfl

/-- The flag of the scanner is left set by an unpaired escape. -/
theorem after_scanner (w : List α) : (scanner esc).after false w = true ↔ Unpaired esc w := by
  induction w using tokens.induct esc with
  | case1 => simp [Unpaired]
  | case2 => simp [next_scanner_self, Unpaired]
  | case3 c hc => simp [next_scanner_of_ne esc hc, Unpaired, hc]
  | case4 d w ih =>
      rw [Transducer.after_cons, Transducer.after_cons, next_scanner_self,
        next_scanner_pending, ih, Unpaired, if_pos rfl]
  | case5 c d w hc ih =>
      rw [Transducer.after_cons, next_scanner_of_ne esc hc, ih, Unpaired, if_neg hc]

/-- A letter that is not the escape is a token of its own. -/
theorem tokens_cons_of_ne {c : α} (hc : c ≠ esc) (w : List α) :
    tokens esc (c :: w) = .plain c :: tokens esc w := by
  cases w with
  | nil => simp [tokens, hc]
  | cons d w => rw [tokens, if_neg hc]

/-- A word has no more tokens than letters. -/
theorem length_tokens_le (w : List α) : (tokens esc w).length ≤ w.length := by
  induction w using tokens.induct esc with
  | case1 | case2 => simp [tokens]
  | case3 c hc => simp [tokens, hc]
  | case4 d w ih =>
      rw [tokens, if_pos rfl, List.length_cons, List.length_cons, List.length_cons]
      omega
  | case5 c d w hc ih =>
      rw [tokens_cons_of_ne esc hc, List.length_cons, List.length_cons]
      omega

/-- An escape makes the tokens fewer than the letters. -/
theorem length_tokens_self_le (w : List α) : (tokens esc (esc :: w)).length ≤ w.length := by
  cases w with
  | nil => simp [tokens]
  | cons d w =>
      have hle := length_tokens_le esc w
      rw [tokens, if_pos rfl, List.length_cons, List.length_cons]
      omega

/-- Behind a word that does not end in an unpaired escape the tokens start anew. -/
theorem tokens_append {u : List α} (hpaired : ¬ Unpaired esc u) (w : List α) :
    tokens esc (u ++ w) = tokens esc u ++ tokens esc w := by
  have hflag : (scanner esc).after false u = false := by
    rw [← Bool.not_eq_true]
    exact fun hset => hpaired ((after_scanner esc u).mp hset)
  calc
    tokens esc (u ++ w) = (scanner esc).output false (u ++ w) := (output_scanner esc _).symm
    _ = (scanner esc).output false u ++ (scanner esc).output false w := by
      rw [Transducer.output_append, hflag]
    _ = tokens esc u ++ tokens esc w := by
      rw [output_scanner, output_scanner]

end EscapeCode
