import Smpp.Common.Octets
import Smpp.Library.EscapeCode

/-!
# From GSM 03.38 to UCS-2

{lit}`convert_gsm_to_ucs2` reads a body octet by octet.  Octets above 127 are left out; a
septet 0x1B sets a flag, and the septet behind it, whichever it is, is looked up in the
extension table instead of the basic one.

Main results:

- Theorem {lit}`step_simulates`: one turn of the loop is one step of the scanner of
  {lit}`EscapeCode`, with the octets above 127 left out and the tokens replaced by their
  units.
- Theorem {lit}`convertGsmToUcs2_tokens`: the output is the concatenation of the units of
  the tokens, and a body may be converted in parts unless a part ends in an escape.
- Theorem {lit}`convertGsmToUcs2_eq_ascii_iff`: {lit}`convert_ascii_to_ucs2` gives the same
  for the bodies of characters that both alphabets share, and for no others.
-/

namespace Smpp

/-! ## The tables -/

/-- {lit}`struct word`: a UCS-2 code unit. -/
structure Word where
  h : UInt8 := 0
  l : UInt8 := 0
deriving DecidableEq, Repr

/-- {lit}`gsm_03_38_to_ucs2`, the basic table. -/
def gsm0338ToUcs2 : Vector Word 128 :=
  #v[
    ⟨0x00, 0x40⟩, ⟨0x00, 0xA3⟩, ⟨0x00, 0x24⟩, ⟨0x00, 0xA5⟩,
    ⟨0x00, 0xE8⟩, ⟨0x00, 0xE9⟩, ⟨0x00, 0xF9⟩, ⟨0x00, 0xEC⟩,
    ⟨0x00, 0xF2⟩, ⟨0x00, 0xE7⟩, ⟨0x00, 0x0A⟩, ⟨0x00, 0xD8⟩,
    ⟨0x00, 0xF8⟩, ⟨0x00, 0x0D⟩, ⟨0x00, 0xC5⟩, ⟨0x00, 0xE5⟩,
    ⟨0x03, 0x94⟩, ⟨0x00, 0x5F⟩, ⟨0x03, 0xA6⟩, ⟨0x03, 0x93⟩,
    ⟨0x03, 0x9B⟩, ⟨0x03, 0xA9⟩, ⟨0x03, 0xA0⟩, ⟨0x03, 0xA8⟩,
    ⟨0x03, 0xA3⟩, ⟨0x03, 0x98⟩, ⟨0x03, 0x9E⟩, ⟨0x00, 0xA0⟩,
    ⟨0x00, 0xC6⟩, ⟨0x00, 0xE6⟩, ⟨0x00, 0xDF⟩, ⟨0x00, 0xC9⟩,
    ⟨0x00, 0x20⟩, ⟨0x00, 0x21⟩, ⟨0x00, 0x22⟩, ⟨0x00, 0x23⟩,
    ⟨0x00, 0xA4⟩, ⟨0x00, 0x25⟩, ⟨0x00, 0x26⟩, ⟨0x00, 0x27⟩,
    ⟨0x00, 0x28⟩, ⟨0x00, 0x29⟩, ⟨0x00, 0x2A⟩, ⟨0x00, 0x2B⟩,
    ⟨0x00, 0x2C⟩, ⟨0x00, 0x2D⟩, ⟨0x00, 0x2E⟩, ⟨0x00, 0x2F⟩,
    ⟨0x00, 0x30⟩, ⟨0x00, 0x31⟩, ⟨0x00, 0x32⟩, ⟨0x00, 0x33⟩,
    ⟨0x00, 0x34⟩, ⟨0x00, 0x35⟩, ⟨0x00, 0x36⟩, ⟨0x00, 0x37⟩,
    ⟨0x00, 0x38⟩, ⟨0x00, 0x39⟩, ⟨0x00, 0x3A⟩, ⟨0x00, 0x3B⟩,
    ⟨0x00, 0x3C⟩, ⟨0x00, 0x3D⟩, ⟨0x00, 0x3E⟩, ⟨0x00, 0x3F⟩,
    ⟨0x00, 0xA1⟩, ⟨0x00, 0x41⟩, ⟨0x00, 0x42⟩, ⟨0x00, 0x43⟩,
    ⟨0x00, 0x44⟩, ⟨0x00, 0x45⟩, ⟨0x00, 0x46⟩, ⟨0x00, 0x47⟩,
    ⟨0x00, 0x48⟩, ⟨0x00, 0x49⟩, ⟨0x00, 0x4A⟩, ⟨0x00, 0x4B⟩,
    ⟨0x00, 0x4C⟩, ⟨0x00, 0x4D⟩, ⟨0x00, 0x4E⟩, ⟨0x00, 0x4F⟩,
    ⟨0x00, 0x50⟩, ⟨0x00, 0x51⟩, ⟨0x00, 0x52⟩, ⟨0x00, 0x53⟩,
    ⟨0x00, 0x54⟩, ⟨0x00, 0x55⟩, ⟨0x00, 0x56⟩, ⟨0x00, 0x57⟩,
    ⟨0x00, 0x58⟩, ⟨0x00, 0x59⟩, ⟨0x00, 0x5A⟩, ⟨0x00, 0xC4⟩,
    ⟨0x00, 0xD6⟩, ⟨0x00, 0xD1⟩, ⟨0x00, 0xDC⟩, ⟨0x00, 0xA7⟩,
    ⟨0x00, 0xBF⟩, ⟨0x00, 0x61⟩, ⟨0x00, 0x62⟩, ⟨0x00, 0x63⟩,
    ⟨0x00, 0x64⟩, ⟨0x00, 0x65⟩, ⟨0x00, 0x66⟩, ⟨0x00, 0x67⟩,
    ⟨0x00, 0x68⟩, ⟨0x00, 0x69⟩, ⟨0x00, 0x6A⟩, ⟨0x00, 0x6B⟩,
    ⟨0x00, 0x6C⟩, ⟨0x00, 0x6D⟩, ⟨0x00, 0x6E⟩, ⟨0x00, 0x6F⟩,
    ⟨0x00, 0x70⟩, ⟨0x00, 0x71⟩, ⟨0x00, 0x72⟩, ⟨0x00, 0x73⟩,
    ⟨0x00, 0x74⟩, ⟨0x00, 0x75⟩, ⟨0x00, 0x76⟩, ⟨0x00, 0x77⟩,
    ⟨0x00, 0x78⟩, ⟨0x00, 0x79⟩, ⟨0x00, 0x7A⟩, ⟨0x00, 0xE4⟩,
    ⟨0x00, 0xF6⟩, ⟨0x00, 0xF1⟩, ⟨0x00, 0xFC⟩, ⟨0x00, 0xE0⟩]

/-- {lit}`extended_gsm_03_38_to_ucs2`, the extension table. -/
def extendedGsm0338ToUcs2 : Vector Word 128 :=
  #v[
    ⟨0x00, 0x20⟩, ⟨0x00, 0x20⟩, ⟨0x00, 0x20⟩, ⟨0x00, 0x20⟩,
    ⟨0x00, 0x20⟩, ⟨0x00, 0x20⟩, ⟨0x00, 0x20⟩, ⟨0x00, 0x20⟩,
    ⟨0x00, 0x20⟩, ⟨0x00, 0x20⟩, ⟨0x00, 0x0C⟩, ⟨0x00, 0x20⟩,
    ⟨0x00, 0x20⟩, ⟨0x00, 0x20⟩, ⟨0x00, 0x20⟩, ⟨0x00, 0x20⟩,
    ⟨0x00, 0x20⟩, ⟨0x00, 0x20⟩, ⟨0x00, 0x20⟩, ⟨0x00, 0x20⟩,
    ⟨0x00, 0x5E⟩, ⟨0x00, 0x20⟩, ⟨0x00, 0x20⟩, ⟨0x00, 0x20⟩,
    ⟨0x00, 0x20⟩, ⟨0x00, 0x20⟩, ⟨0x00, 0x20⟩, ⟨0x00, 0x20⟩,
    ⟨0x00, 0x20⟩, ⟨0x00, 0x20⟩, ⟨0x00, 0x20⟩, ⟨0x00, 0x20⟩,
    ⟨0x00, 0x20⟩, ⟨0x00, 0x20⟩, ⟨0x00, 0x20⟩, ⟨0x00, 0x20⟩,
    ⟨0x00, 0x20⟩, ⟨0x00, 0x20⟩, ⟨0x00, 0x20⟩, ⟨0x00, 0x20⟩,
    ⟨0x00, 0x7B⟩, ⟨0x00, 0x7D⟩, ⟨0x00, 0x20⟩, ⟨0x00, 0x20⟩,
    ⟨0x00, 0x20⟩, ⟨0x00, 0x20⟩, ⟨0x00, 0x20⟩, ⟨0x00, 0x5C⟩,
    ⟨0x00, 0x20⟩, ⟨0x00, 0x20⟩, ⟨0x00, 0x20⟩, ⟨0x00, 0x20⟩,
    ⟨0x00, 0x20⟩, ⟨0x00, 0x20⟩, ⟨0x00, 0x20⟩, ⟨0x00, 0x20⟩,
    ⟨0x00, 0x20⟩, ⟨0x00, 0x20⟩, ⟨0x00, 0x20⟩, ⟨0x00, 0x20⟩,
    ⟨0x00, 0x5B⟩, ⟨0x00, 0x7E⟩, ⟨0x00, 0x5D⟩, ⟨0x00, 0x20⟩,
    ⟨0x00, 0x7C⟩, ⟨0x00, 0x20⟩, ⟨0x00, 0x20⟩, ⟨0x00, 0x20⟩,
    ⟨0x00, 0x20⟩, ⟨0x00, 0x20⟩, ⟨0x00, 0x20⟩, ⟨0x00, 0x20⟩,
    ⟨0x00, 0x20⟩, ⟨0x00, 0x20⟩, ⟨0x00, 0x20⟩, ⟨0x00, 0x20⟩,
    ⟨0x00, 0x20⟩, ⟨0x00, 0x20⟩, ⟨0x00, 0x20⟩, ⟨0x00, 0x20⟩,
    ⟨0x00, 0x20⟩, ⟨0x00, 0x20⟩, ⟨0x00, 0x20⟩, ⟨0x00, 0x20⟩,
    ⟨0x00, 0x20⟩, ⟨0x00, 0x20⟩, ⟨0x00, 0x20⟩, ⟨0x00, 0x20⟩,
    ⟨0x00, 0x20⟩, ⟨0x00, 0x20⟩, ⟨0x00, 0x20⟩, ⟨0x00, 0x20⟩,
    ⟨0x00, 0x20⟩, ⟨0x00, 0x20⟩, ⟨0x00, 0x20⟩, ⟨0x00, 0x20⟩,
    ⟨0x00, 0x20⟩, ⟨0x00, 0x20⟩, ⟨0x00, 0x20⟩, ⟨0x00, 0x20⟩,
    ⟨0x00, 0x20⟩, ⟨0x20, 0xAC⟩, ⟨0x00, 0x20⟩, ⟨0x00, 0x20⟩,
    ⟨0x00, 0x20⟩, ⟨0x00, 0x20⟩, ⟨0x00, 0x20⟩, ⟨0x00, 0x20⟩,
    ⟨0x00, 0x20⟩, ⟨0x00, 0x20⟩, ⟨0x00, 0x20⟩, ⟨0x00, 0x20⟩,
    ⟨0x00, 0x20⟩, ⟨0x00, 0x20⟩, ⟨0x00, 0x20⟩, ⟨0x00, 0x20⟩,
    ⟨0x00, 0x20⟩, ⟨0x00, 0x20⟩, ⟨0x00, 0x20⟩, ⟨0x00, 0x20⟩,
    ⟨0x00, 0x20⟩, ⟨0x00, 0x20⟩, ⟨0x00, 0x20⟩, ⟨0x00, 0x20⟩,
    ⟨0x00, 0x20⟩, ⟨0x00, 0x20⟩, ⟨0x00, 0x20⟩, ⟨0x00, 0x20⟩]

/-! ## The loop -/

/-- The local variables of {lit}`convert_gsm_to_ucs2`. -/
structure GsmState where
  ucs2 : Octets := []
  extended : Bool := false
deriving DecidableEq, Repr

/-- The body of the {lit}`for` loop of {lit}`convert_gsm_to_ucs2`. -/
def GsmState.step (s : GsmState) (septet : UInt8) : GsmState :=
  if h : septet.toNat > 127 then
    s
  else if !s.extended && septet == 0x1B then
    { s with extended := true }
  else
    let word := if s.extended then extendedGsm0338ToUcs2[septet.toNat]
      else gsm0338ToUcs2[septet.toNat]
    { ucs2 := s.ucs2 ++ [word.h, word.l], extended := false }

/-- {lit}`convert_gsm_to_ucs2`. -/
def convertGsmToUcs2 (body : Octets) : Octets :=
  (body.foldl GsmState.step {}).ucs2

/-! ## The tokens of a body -/

/-- The indices of the tables. -/
abbrev Septet := Fin 128

/-- The septet that escapes to the extension table. -/
def gsmEscape : Septet := 0x1B

/-- Octets above 127 are no septets. -/
def septetOf (octet : UInt8) : Option Septet :=
  if h : octet.toNat > 127 then none else some ⟨octet.toNat, by omega⟩

/-- The body with all octets above 127 removed. -/
def septets (body : Octets) : List Septet :=
  body.filterMap septetOf

/-- An escape with the septet behind it, or any other septet. -/
def gsmTokens (body : Octets) : List (EscapeToken Septet) :=
  EscapeCode.tokens gsmEscape (septets body)

/-- The last septet of the body is an escape that has not been escaped itself. -/
def EndsInEscape (body : Octets) : Prop :=
  EscapeCode.Unpaired gsmEscape (septets body)

/-- The table entry of a token. -/
def gsmWord : EscapeToken Septet → Word
  | .plain c => gsm0338ToUcs2[c]
  | .escaped c => extendedGsm0338ToUcs2[c]

/-- The two octets of a token. -/
def gsmUnit (token : EscapeToken Septet) : Octets :=
  [(gsmWord token).h, (gsmWord token).l]

@[simp]
theorem length_gsmUnit (token : EscapeToken Septet) : (gsmUnit token).length = 2 :=
  rfl

/-- The entry of the basic table at the escape stands nowhere else in the tables. -/
theorem gsmWord_ne {token : EscapeToken Septet} (hne : token ≠ .plain gsmEscape) :
    gsmWord token ≠ gsm0338ToUcs2[gsmEscape] := by
  have hbasic : ∀ c : Septet, c ≠ gsmEscape → gsm0338ToUcs2[c] ≠ gsm0338ToUcs2[gsmEscape] := by
    decide +kernel
  have hextended : ∀ c : Septet, extendedGsm0338ToUcs2[c] ≠ gsm0338ToUcs2[gsmEscape] := by
    decide +kernel
  cases token with
  | plain c => exact hbasic c fun hc => hne (congrArg EscapeToken.plain hc)
  | escaped c => exact hextended c

/-! ## The loop as a transducer -/

/-- The scanner for the escape, on septets, with the units of the tokens. -/
def gsmConverter : Transducer Bool UInt8 UInt8 :=
  ((EscapeCode.scanner gsmEscape).map gsmUnit).comap septetOf

theorem septetOf_of_gt {octet : UInt8} (hlarge : octet.toNat > 127) : septetOf octet = none :=
  dif_pos hlarge

theorem septetOf_of_le {octet : UInt8} (hsmall : ¬ octet.toNat > 127) :
    septetOf octet = some ⟨octet.toNat, by omega⟩ :=
  dif_neg hsmall

theorem mk_eq_gsmEscape_iff {octet : UInt8} (hlt : octet.toNat < 128) :
    (⟨octet.toNat, hlt⟩ : Septet) = gsmEscape ↔ octet = 0x1B := by
  rw [Fin.ext_iff, ← UInt8.toNat_inj]
  rfl

/-- One turn of the loop on a septet. -/
theorem step_of_septet {octet : UInt8} {c : Septet} (hseptet : septetOf octet = some c)
    (s : GsmState) :
    (s.step octet).ucs2 =
        s.ucs2 ++ ((EscapeCode.scanner gsmEscape).emit s.extended c).flatMap gsmUnit ∧
      (s.step octet).extended = (EscapeCode.scanner gsmEscape).next s.extended c := by
  rcases s with ⟨ucs2, extended⟩
  by_cases hlarge : octet.toNat > 127
  · rw [septetOf_of_gt hlarge] at hseptet
    cases hseptet
  rw [septetOf_of_le hlarge, Option.some.injEq] at hseptet
  subst hseptet
  have hlt : octet.toNat < 128 := by omega
  have hescape := mk_eq_gsmEscape_iff hlt
  cases extended with
  | true =>
      rw [EscapeCode.emit_scanner_pending, EscapeCode.next_scanner_pending]
      simp [GsmState.step, hlarge, gsmUnit, gsmWord]
  | false =>
      by_cases hself : octet = 0x1B
      · rw [hescape.mpr hself, EscapeCode.emit_scanner_self, EscapeCode.next_scanner_self]
        simp [GsmState.step, hself]
      · have hne := fun heq => hself (hescape.mp heq)
        rw [EscapeCode.emit_scanner_of_ne _ hne, EscapeCode.next_scanner_of_ne _ hne]
        simp [GsmState.step, hlarge, hself, gsmUnit, gsmWord]

/-- One turn of the loop is one step of the transducer. -/
theorem step_simulates (s : GsmState) (octet : UInt8) :
    (s.step octet).ucs2 = s.ucs2 ++ gsmConverter.emit s.extended octet ∧
      (s.step octet).extended = gsmConverter.next s.extended octet := by
  cases hseptet : septetOf octet with
  | none =>
      have hlarge : octet.toNat > 127 := by
        by_contra hsmall
        rw [septetOf_of_le hsmall] at hseptet
        cases hseptet
      rw [gsmConverter, Transducer.emit_comap_of_none hseptet,
        Transducer.next_comap_of_none hseptet, List.append_nil, GsmState.step, dif_pos hlarge]
      exact ⟨rfl, rfl⟩
  | some c =>
      rw [gsmConverter, Transducer.emit_comap_of_some hseptet,
        Transducer.next_comap_of_some hseptet, Transducer.emit_map, Transducer.next_map]
      exact step_of_septet hseptet s

/-- The converter shows the units of the tokens. -/
theorem convertGsmToUcs2_eq (body : Octets) :
    convertGsmToUcs2 body = (gsmTokens body).flatMap gsmUnit := by
  have hloop : convertGsmToUcs2 body = gsmConverter.output false body :=
    gsmConverter.foldl_simulates GsmState.ucs2 GsmState.extended
      (fun s septet => (step_simulates s septet).1) (fun s septet => (step_simulates s septet).2)
      {} body
  calc
    convertGsmToUcs2 body
        = ((EscapeCode.scanner gsmEscape).map gsmUnit).output false (septets body) := by
          rw [hloop, gsmConverter, Transducer.output_comap, septets]
    _ = (gsmTokens body).flatMap gsmUnit := by
          rw [Transducer.output_map, EscapeCode.output_scanner, gsmTokens]

/-! ## Decoding -/

theorem septets_append (a b : Octets) : septets (a ++ b) = septets a ++ septets b :=
  List.filterMap_append

/-- What {lit}`convert_gsm_to_ucs2` makes of a body. -/
structure GsmDecoded (body : Octets) : Prop where
  /-- The tokens spell the body without the octets above 127. -/
  spelled : ¬ EndsInEscape body →
    septets body = (gsmTokens body).flatMap (EscapeCode.spell gsmEscape)
  unpaired : EndsInEscape body →
    septets body = (gsmTokens body).flatMap (EscapeCode.spell gsmEscape) ++ [gsmEscape]
  units : convertGsmToUcs2 body = (gsmTokens body).flatMap gsmUnit
  length : (convertGsmToUcs2 body).length = 2 * (gsmTokens body).length
  /-- The entry of the basic table at the escape is never shown. -/
  escape : ∀ token ∈ gsmTokens body,
    token ≠ .plain gsmEscape ∧ gsmWord token ≠ gsm0338ToUcs2[gsmEscape]
  append : ∀ b, ¬ EndsInEscape body →
    convertGsmToUcs2 (body ++ b) = convertGsmToUcs2 body ++ convertGsmToUcs2 b

/-- Every body is decoded token by token, and in parts unless a part ends in an escape. -/
theorem convertGsmToUcs2_tokens (body : Octets) : GsmDecoded body := by
  have hspell := EscapeCode.eq_spell_tokens gsmEscape (septets body)
  refine ⟨hspell.2, hspell.1, convertGsmToUcs2_eq body, ?_, ?_, ?_⟩
  · rw [convertGsmToUcs2_eq, List.length_flatMap]
    simp [List.map_const', Nat.mul_comm]
  · intro token hmem
    have hne : token ≠ .plain gsmEscape := by
      rintro rfl
      exact EscapeCode.plain_notMem_tokens gsmEscape (septets body) hmem
    exact ⟨hne, gsmWord_ne hne⟩
  · intro b hpaired
    have htokens : gsmTokens (body ++ b) = gsmTokens body ++ gsmTokens b := by
      rw [gsmTokens, septets_append]
      exact EscapeCode.tokens_append gsmEscape hpaired (septets b)
    rw [convertGsmToUcs2_eq, convertGsmToUcs2_eq, convertGsmToUcs2_eq, htokens,
      List.flatMap_append]

/-- The euro sign, an octet that is left out between an escape and its septet, an escaped
escape, and an escape at the end. -/
example : convertGsmToUcs2 [0x1B, 0x65, 0x1B, 0xC0, 0x28, 0x1B, 0x1B, 0x41, 0x1B] =
    [0x20, 0xAC, 0x00, 0x7B, 0x00, 0x20, 0x00, 0x41] := by
  decide

/-! ## From ASCII to UCS-2 -/

/-- {lit}`convert_ascii_to_ucs2`. -/
def convertAsciiToUcs2 (body : Octets) : Octets :=
  body.foldl (fun ucs2 ch => ucs2 ++ [0x00, ch]) []

/-- The loop shows two octets for each character. -/
theorem convertAsciiToUcs2_eq (body : Octets) :
    convertAsciiToUcs2 body = body.flatMap fun ch => [0x00, ch] := by
  have hloop : ∀ ucs2 : Octets, body.foldl (fun ucs2 ch => ucs2 ++ [0x00, ch]) ucs2 =
      ucs2 ++ body.flatMap fun ch => [0x00, ch] := by
    induction body with
    | nil => simp
    | cons ch body ih =>
        intro ucs2
        rw [List.foldl_cons, ih, List.flatMap_cons, List.append_assoc]
  exact hloop []

/-- The characters with the same code in ASCII and in the basic table: line feed, carriage
return, the letters, the digits and the punctuation in front of them except the dollar. -/
def IsShared (ch : UInt8) : Prop :=
  ch = 0x0A ∨ ch = 0x0D ∨ 0x20 ≤ ch ∧ ch ≤ 0x3F ∧ ch ≠ 0x24 ∨ 0x41 ≤ ch ∧ ch ≤ 0x5A ∨
    0x61 ≤ ch ∧ ch ≤ 0x7A

instance (ch : UInt8) : Decidable (IsShared ch) := by
  unfold IsShared
  infer_instance

/-- The basic table and ASCII agree on the shared characters only. -/
theorem gsmUnit_plain_eq_iff (c : Septet) (hne : c ≠ gsmEscape) :
    gsmUnit (.plain c) = [0x00, UInt8.ofNat c] ↔ IsShared (UInt8.ofNat c) := by
  revert c
  decide +kernel

/-- The escape and the octets above 127 are not shared. -/
theorem septetOf_of_isShared {ch : UInt8} (hshared : IsShared ch) :
    ∃ c, septetOf ch = some c ∧ c ≠ gsmEscape := by
  have hbounds : ch.toNat ≤ 127 ∧ ch.toNat ≠ 0x1B := by
    simp only [IsShared, UInt8.le_iff_toNat_le, ← UInt8.toNat_inj, UInt8.reduceToNat]
      at hshared
    omega
  refine ⟨_, septetOf_of_le (by omega), ?_⟩
  rw [Ne, mk_eq_gsmEscape_iff (by omega), ← UInt8.toNat_inj]
  exact hbounds.2

theorem ofNat_of_septetOf {ch : UInt8} {c : Septet} (hseptet : septetOf ch = some c) :
    UInt8.ofNat c = ch := by
  by_cases hlarge : ch.toNat > 127
  · rw [septetOf_of_gt hlarge] at hseptet
    cases hseptet
  · rw [septetOf_of_le hlarge, Option.some.injEq] at hseptet
    rw [← hseptet]
    exact UInt8.ofNat_toNat

/-- With fewer tokens than characters the output is too short. -/
theorem units_ne_of_length_lt {tokens : List (EscapeToken Septet)} {body : Octets}
    (hlt : tokens.length < body.length) :
    tokens.flatMap gsmUnit ≠ body.flatMap fun ch => [0x00, ch] := by
  intro heq
  have hlength := congrArg List.length heq
  rw [List.length_flatMap, List.length_flatMap] at hlength
  simp [List.map_const'] at hlength
  omega

/-- A body reads the same in both alphabets exactly when it consists of shared characters. -/
theorem convertGsmToUcs2_eq_ascii_iff (body : Octets) :
    convertGsmToUcs2 body = convertAsciiToUcs2 body ↔ ∀ ch ∈ body, IsShared ch := by
  rw [convertGsmToUcs2_eq, convertAsciiToUcs2_eq]
  induction body with
  | nil => simp [gsmTokens, septets, EscapeCode.tokens]
  | cons ch body ih =>
      have hseptets : (septets body).length ≤ body.length := List.length_filterMap_le _ _
      have hle := EscapeCode.length_tokens_le gsmEscape (septets body)
      cases hseptet : septetOf ch with
      | none =>
          have hsame : septets (ch :: body) = septets body := List.filterMap_cons_none hseptet
          have hfew : (gsmTokens (ch :: body)).length < (ch :: body).length := by
            rw [gsmTokens, hsame, List.length_cons]
            omega
          refine iff_of_false (units_ne_of_length_lt hfew) fun hshared => ?_
          rcases septetOf_of_isShared (hshared ch List.mem_cons_self) with ⟨c, hc, _⟩
          rw [hseptet] at hc
          cases hc
      | some c =>
          have hfirst : septets (ch :: body) = c :: septets body :=
            List.filterMap_cons_some hseptet
          by_cases hescape : c = gsmEscape
          · have hself := EscapeCode.length_tokens_self_le gsmEscape (septets body)
            have hfew : (gsmTokens (ch :: body)).length < (ch :: body).length := by
              rw [gsmTokens, hfirst, hescape, List.length_cons]
              omega
            refine iff_of_false (units_ne_of_length_lt hfew) fun hshared => ?_
            rcases septetOf_of_isShared (hshared ch List.mem_cons_self) with ⟨c', hc, hne⟩
            rw [hseptet, Option.some.injEq] at hc
            exact hne (hc ▸ hescape)
          · have htokens : gsmTokens (ch :: body) = .plain c :: gsmTokens body := by
              rw [gsmTokens, hfirst, EscapeCode.tokens_cons_of_ne gsmEscape hescape, gsmTokens]
            have hunit := gsmUnit_plain_eq_iff c hescape
            rw [ofNat_of_septetOf hseptet] at hunit
            rw [htokens, List.flatMap_cons, List.flatMap_cons, List.forall_mem_cons]
            constructor
            · intro heq
              rcases List.append_inj heq rfl with ⟨hsame, hrest⟩
              exact ⟨hunit.mp hsame, ih.mp hrest⟩
            · rintro ⟨hshared, hrest⟩
              rw [hunit.mpr hshared, ih.mpr hrest]

end Smpp
