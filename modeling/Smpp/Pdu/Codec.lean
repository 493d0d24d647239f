import Smpp.Pdu.Meta

/-!
# Encoding and decoding of PDU bodies

{lit}`smpp::serialize_to` and {lit}`smpp::deserialize` at every PDU type, and the two
properties that relate them.

Main results:

- Theorem {lit}`PduType.deserialize_serializeTo_iff`: a body the encoder wrote
  decodes to the value it was written from exactly when no C string of the value
  holds a NUL.
- Theorem {lit}`PduType.deserialize_reencode`: whatever a decoder returned can be
  encoded, and decodes to itself again.
- Theorem {lit}`PduType.deserialize_iff_grammar`: a decoder accepts exactly the bodies
  of its grammar, each of which has one cut.

Current gaps:

- {lit}`c_octet_str::serialize_to` checks the length of a string but not its content,
  so that the round trip fails for strings with an embedded NUL.
-/

namespace Smpp

namespace PduType

/-! ## The two functions -/

/-- {lit}`smpp::serialize_to(vec, pdu)`. -/
def serializeTo (t : PduType) (pdu : t.Struct) : Writer Unit :=
  t.pduMeta.fields.serializeTo (t.pduMeta.members pdu)

/-- {lit}`smpp::deserialize<PDU>(buf)`; octets behind the last field are ignored. -/
def deserialize (t : PduType) (buf : Octets) : Except Fault t.Struct :=
  if buf.isEmpty then .ok t.pduMeta.default
  else
    match t.pduMeta.fields.deserialize.run buf with
    | .ok vals _ => .ok (t.pduMeta.members.symm vals)
    | .error e _ => .error e

variable {t : PduType}

/-- Every length check of the encoder passes. -/
def Fits (t : PduType) (pdu : t.Struct) : Prop :=
  t.pduMeta.fields.Fits (t.pduMeta.members pdu)

/-- No member written as a C string holds a NUL. -/
def NulFree (t : PduType) (pdu : t.Struct) : Prop :=
  t.pduMeta.fields.NulFree (t.pduMeta.members pdu)

/-- Every {lit}`esm_class` and {lit}`registered_delivery` member holds declared
enumerators. -/
def Declared (t : PduType) (pdu : t.Struct) : Prop :=
  t.pduMeta.fields.Declared (t.pduMeta.members pdu)

/-- Every flag member survives packing and unpacking. -/
def FlagsKept (t : PduType) (pdu : t.Struct) : Prop :=
  t.pduMeta.fields.FlagsKept (t.pduMeta.members pdu)

/-- The body the encoder writes. -/
def encode (t : PduType) (pdu : t.Struct) : Octets :=
  t.pduMeta.fields.encode (t.pduMeta.members pdu)

/-- The number of octets of the body, from the members alone. -/
def size (t : PduType) (pdu : t.Struct) : Nat :=
  t.pduMeta.fields.size (t.pduMeta.members pdu)

/-- The grammar of a body together with the value it denotes. -/
def Splits (t : PduType) (pdu : t.Struct) (es : List Octets) (r : Octets) : Prop :=
  t.pduMeta.fields.Splits (t.pduMeta.members pdu) es r

/-- The grammar of a body: {lit}`es` are encodings of the mandatory fields, in order,
and {lit}`r` is what follows them. -/
def Grammar (t : PduType) (es : List Octets) (r : Octets) : Prop :=
  t.pduMeta.fields.Grammar es r

/-- The body that the encoder writes can be cut again into what the fields of its type admit and
what may follow them. -/
def Readable (t : PduType) (pdu : t.Struct) : Prop :=
  ∃ es r, t.Grammar es r ∧ t.encode pdu = es.flatten ++ r

/-- The last field of the type is an {lit}`oparam`. -/
def HasOparam (t : PduType) : Prop :=
  t.pduMeta.fields.HasOparam

/-! ## The functions on their domains -/

/-- The encoder appends the encoding when the value fits and throws a length error
otherwise. -/
theorem run_serializeTo (pdu : t.Struct) (vec : Octets) :
    (t.Fits pdu ∧ (t.serializeTo pdu).run vec = .ok () (vec ++ t.encode pdu)) ∨
      (¬ t.Fits pdu ∧
        ∃ what vec', (t.serializeTo pdu).run vec = .error (.lengthError what) vec') :=
  t.pduMeta.fields.run_serializeTo (t.pduMeta.members pdu) vec

@[simp]
theorem length_encode (pdu : t.Struct) : (t.encode pdu).length = t.size pdu :=
  t.pduMeta.fields.length_encode _

theorem run_serializeTo_of_fits {pdu : t.Struct} (hfits : t.Fits pdu) (vec : Octets) :
    (t.serializeTo pdu).run vec = .ok () (vec ++ t.encode pdu) := by
  rcases run_serializeTo pdu vec with ⟨_, hrun⟩ | ⟨hnot, _⟩
  · exact hrun
  · exact absurd hfits hnot

/-- What a successful run of the encoder says. -/
theorem fits_of_run_serializeTo {pdu : t.Struct} {vec out : Octets}
    (hrun : (t.serializeTo pdu).run vec = .ok () out) :
    t.Fits pdu ∧ out = vec ++ t.encode pdu := by
  rcases run_serializeTo pdu vec with ⟨hfits, hok⟩ | ⟨_, what, vec', herror⟩
  · rw [hrun] at hok
    injection hok with _ hout
    exact ⟨hfits, hout⟩
  · rw [hrun] at herror
    cases herror

@[simp]
theorem deserialize_nil : t.deserialize [] = .ok t.pduMeta.default :=
  rfl

/-- On a non-empty body the decoder is the fold over the fields. -/
theorem deserialize_of_ne_nil {buf : Octets} (hbuf : buf ≠ []) :
    t.deserialize buf =
      match t.pduMeta.fields.deserialize.run buf with
      | .ok vals _ => .ok (t.pduMeta.members.symm vals)
      | .error e _ => .error e := by
  rw [deserialize, if_neg (by simpa using hbuf)]

/-- The decoder returns the value of every body of the grammar. -/
theorem deserialize_of_splits {pdu : t.Struct} {es : List Octets} {r : Octets}
    (hsplits : t.Splits pdu es r) (hbody : es.flatten ++ r ≠ []) :
    t.deserialize (es.flatten ++ r) = .ok pdu := by
  rcases t.pduMeta.fields.deserialize_of_splits hsplits with ⟨rest, hrun⟩
  rw [deserialize_of_ne_nil hbody, hrun]
  simp

/-- On every other non-empty body the decoder throws a length error. -/
theorem deserialize_cases (t : PduType) {buf : Octets} (hbuf : buf ≠ []) :
    (∃ pdu es r, t.Splits pdu es r ∧ buf = es.flatten ++ r ∧ t.deserialize buf = .ok pdu) ∨
      ((¬ ∃ es r, t.Grammar es r ∧ buf = es.flatten ++ r) ∧
        ∃ what, t.deserialize buf = .error (.lengthError what)) := by
  rcases t.pduMeta.fields.deserialize_cases buf with
    ⟨vals, es, r, hsplits, rfl⟩ | ⟨what, rest, hrun⟩
  · have hmembers : t.Splits (t.pduMeta.members.symm vals) es r := by
      simpa [Splits] using hsplits
    exact Or.inl ⟨_, es, r, hmembers, rfl, deserialize_of_splits hmembers hbuf⟩
  · refine Or.inr ⟨?_, what, by rw [deserialize_of_ne_nil hbuf, hrun]⟩
    rintro ⟨es, r, hgrammar, rfl⟩
    rcases (t.pduMeta.fields.grammar_iff es r).mp hgrammar with ⟨vals, hsplits⟩
    rcases t.pduMeta.fields.deserialize_of_splits hsplits with ⟨rest', hok⟩
    rw [hrun] at hok
    cases hok

/-- A body has at most one cut, and the cut determines the value. -/
theorem Splits.unique {pdu pdu' : t.Struct} {es es' : List Octets} {r r' : Octets}
    (hsplits : t.Splits pdu es r) (hsplits' : t.Splits pdu' es' r')
    (heq : es.flatten ++ r = es'.flatten ++ r') : pdu = pdu' ∧ es = es' ∧ r = r' := by
  rcases FieldList.Splits.unique hsplits hsplits' heq with ⟨hmembers, hes, hr⟩
  exact ⟨t.pduMeta.members.injective hmembers, hes, hr⟩

/-- An empty encoding comes from the default value. -/
theorem eq_default_of_encode {pdu : t.Struct} (hencode : t.encode pdu = []) :
    pdu = t.pduMeta.default :=
  t.pduMeta.members.injective
    (t.pduMeta.fields.eq_of_encode_eq_nil t.pduMeta.anchored hencode _)

/-- The default value of a type passes every check of its encoder. -/
theorem fits_default (t : PduType) : t.Fits t.pduMeta.default :=
  t.pduMeta.default_fits

/-- Whatever the decoder returned passes every check of the encoder. -/
theorem fits_of_deserialize {buf : Octets} {pdu : t.Struct}
    (hrun : t.deserialize buf = .ok pdu) : t.Fits pdu ∧ t.NulFree pdu ∧ t.FlagsKept pdu := by
  by_cases hbuf : buf = []
  · subst hbuf
    cases hrun
    exact ⟨t.pduMeta.default_fits, t.pduMeta.default_nulFree, t.pduMeta.default_flagsKept⟩
  · rcases deserialize_cases t hbuf with ⟨pdu', es, r, hsplits, _, hok⟩ | ⟨_, what, herror⟩
    · rw [hrun] at hok
      cases hok
      exact t.pduMeta.fields.fits_of_splits hsplits
    · rw [hrun] at herror
      cases herror

/-- A value takes no more octets than the body it was decoded from, if there was any. -/
theorem size_le_of_deserialize {buf : Octets} {pdu : t.Struct} (hbuf : buf ≠ [])
    (hrun : t.deserialize buf = .ok pdu) : t.size pdu ≤ buf.length := by
  rcases deserialize_cases t hbuf with ⟨pdu', es, r, hsplits, rfl, hok⟩ | ⟨_, what, herror⟩
  · rw [hrun] at hok
    cases hok
    exact t.pduMeta.fields.size_le_of_splits hsplits
  · rw [hrun] at herror
    cases herror

/-! ## Decoding what was encoded -/

/-- The body of a value without a NUL in a C string can be read. -/
theorem readable_of_nulFree {pdu : t.Struct} (hfits : t.Fits pdu) (hnul : t.NulFree pdu) :
    t.Readable pdu :=
  ⟨_, _, t.pduMeta.fields.grammar_encode t.pduMeta.limits hfits hnul, rfl⟩

/-- A body can be read exactly when the decoder returns a value for it. -/
theorem readable_iff {pdu : t.Struct} :
    t.Readable pdu ↔ ∃ pdu', t.deserialize (t.encode pdu) = .ok pdu' := by
  by_cases hencode : t.encode pdu = []
  · have hpdu := eq_default_of_encode hencode
    refine iff_of_true ?_ ⟨_, by rw [hencode, deserialize_nil]⟩
    rw [hpdu]
    exact readable_of_nulFree t.fits_default t.pduMeta.default_nulFree
  · rcases deserialize_cases t hencode with
      ⟨pdu', es, r, hsplits, hcut, hok⟩ | ⟨hnone, what, herror⟩
    · have hgrammar : t.Grammar es r := (t.pduMeta.fields.grammar_iff es r).mpr ⟨_, hsplits⟩
      exact iff_of_true ⟨es, r, hgrammar, hcut⟩ ⟨pdu', hok⟩
    · refine iff_of_false hnone ?_
      rintro ⟨pdu', hok⟩
      rw [herror] at hok
      cases hok

/-- What the encoder wrote decodes to the value again exactly when no C string of
the value holds a NUL. -/
theorem deserialize_encode_iff {pdu : t.Struct} (hfits : t.Fits pdu)
    (hflags : t.FlagsKept pdu) : t.deserialize (t.encode pdu) = .ok pdu ↔ t.NulFree pdu := by
  by_cases hencode : t.encode pdu = []
  · have hpdu := eq_default_of_encode hencode
    rw [hencode, deserialize_nil, ← hpdu]
    refine iff_of_true rfl ?_
    rw [hpdu]
    exact t.pduMeta.default_nulFree
  · rw [← show _ ↔ t.NulFree pdu from
      t.pduMeta.fields.deserialize_encode_iff t.pduMeta.limits hfits hflags,
      deserialize_of_ne_nil hencode]
    change (match t.pduMeta.fields.deserialize.run (t.encode pdu) with
      | .ok vals _ => _
      | .error e _ => _) = _ ↔ ∃ rest, t.pduMeta.fields.deserialize.run (t.encode pdu) = _
    cases t.pduMeta.fields.deserialize.run (t.encode pdu) with
    | ok vals rest => simp [Equiv.symm_apply_eq]
    | error e rest => simp

/-- The body appended for a value decodes to that value if and only if no member
written as a C string holds a NUL. -/
theorem deserialize_serializeTo_iff (t : PduType) (pdu : t.Struct) (vec out : Octets)
    (hdeclared : t.Declared pdu) (hrun : (t.serializeTo pdu).run vec = .ok () out) :
    ∃ bytes, out = vec ++ bytes ∧ (t.deserialize bytes = .ok pdu ↔ t.NulFree pdu) := by
  rcases fits_of_run_serializeTo hrun with ⟨hfits, hout⟩
  have hflags : t.FlagsKept pdu := t.pduMeta.fields.flagsKept_of_declared hdeclared
  exact ⟨t.encode pdu, hout, deserialize_encode_iff hfits hflags⟩

/-- The round trip of a replacement with a text and a receipt flag. -/
theorem deserialize_serializeTo_iff_replaceSm :
    ∃ bytes, [0, 0, 0, 0, 0, 0, 1, 0, 2, 0x48, 0x69] = [] ++ bytes ∧
      (deserialize .replaceSm bytes =
          .ok { registeredDelivery := ⟨.both, .no, .no⟩, shortMessage := [0x48, 0x69] } ↔
        NulFree .replaceSm
          { registeredDelivery := ⟨.both, .no, .no⟩, shortMessage := [0x48, 0x69] }) :=
  deserialize_serializeTo_iff .replaceSm _ [] _
    ⟨trivial, trivial, trivial, trivial, trivial, trivial,
      ⟨by decide, by decide, by decide⟩, trivial, trivial, trivial⟩ rfl

/-- A NUL inside the system identifier ends it early, and its tail decodes as the
password. -/
theorem not_roundTrip_outbind :
    ¬ ∀ (t : PduType) (pdu : t.Struct) (vec bytes : Octets), t.Declared pdu →
      (t.serializeTo pdu).run vec = .ok () (vec ++ bytes) → t.deserialize bytes = .ok pdu := by
  intro hroundTrip
  have hdecoded := hroundTrip .outbind { systemId := [0x61, 0, 0x62] } []
    [0x61, 0, 0x62, 0, 0] ⟨trivial, trivial, trivial⟩ rfl
  exact absurd hdecoded (by decide)

/-- Whatever a decoder returned can be encoded again, and the encoding decodes to
the same value. -/
theorem deserialize_reencode (t : PduType) (buf : Octets) (pdu : t.Struct)
    (hrun : t.deserialize buf = .ok pdu) (vec : Octets) :
    ∃ bytes, (t.serializeTo pdu).run vec = .ok () (vec ++ bytes) ∧
      t.deserialize bytes = .ok pdu := by
  rcases fits_of_deserialize hrun with ⟨hfits, hnul, hflags⟩
  exact ⟨t.encode pdu, run_serializeTo_of_fits hfits vec,
    (deserialize_encode_iff hfits hflags).mpr hnul⟩

/-- A body with reserved receipt bits and an octet behind the last field. -/
theorem deserialize_reencode_replaceSm :
    ∃ bytes, (serializeTo .replaceSm { registeredDelivery := ⟨.both, .no, .no⟩ }).run [] =
        .ok () ([] ++ bytes) ∧
      deserialize .replaceSm bytes = .ok { registeredDelivery := ⟨.both, .no, .no⟩ } :=
  deserialize_reencode .replaceSm [0, 0, 0, 0, 0, 0, 0xE1, 0, 0, 0x99] _ (by decide +kernel) []

/-! ## The accepted bodies -/

/-- The decoder accepts a non-empty body exactly when the body is in the grammar,
and throws a length error otherwise.  The cut it found is the only one, carries the
members, and is followed by octets that do not matter unless they are TLVs. -/
theorem deserialize_iff_grammar (t : PduType) (buf : Octets) (hbuf : buf ≠ []) :
    ((∃ pdu, t.deserialize buf = .ok pdu) ↔
        ∃ es r, t.Grammar es r ∧ buf = es.flatten ++ r) ∧
      ((∃ pdu, t.deserialize buf = .ok pdu) ∨
        ∃ what, t.deserialize buf = .error (.lengthError what)) ∧
      ∀ pdu, t.deserialize buf = .ok pdu →
        ∃ es r, t.Splits pdu es r ∧ buf = es.flatten ++ r ∧
          (∀ es' r', t.Grammar es' r' → buf = es'.flatten ++ r' → es' = es ∧ r' = r) ∧
          (¬ t.HasOparam → ∀ r', es.flatten ++ r' ≠ [] →
            t.deserialize (es.flatten ++ r') = .ok pdu) := by
  rcases deserialize_cases t hbuf with
    ⟨pdu, es, r, hsplits, hcut, hok⟩ | ⟨hnone, what, herror⟩
  · have hgrammar : t.Grammar es r :=
      (t.pduMeta.fields.grammar_iff es r).mpr ⟨_, hsplits⟩
    refine ⟨iff_of_true ⟨pdu, hok⟩ ⟨es, r, hgrammar, hcut⟩, Or.inl ⟨pdu, hok⟩, ?_⟩
    intro pdu' hok'
    rw [hok] at hok'
    cases hok'
    refine ⟨es, r, hsplits, hcut, ?_, ?_⟩
    · intro es' r' hgrammar' hcut'
      rcases (t.pduMeta.fields.grammar_iff es' r').mp hgrammar' with ⟨vals, hsplits'⟩
      rcases FieldList.Splits.unique hsplits' hsplits (hcut'.symm.trans hcut) with ⟨_, hes, hr⟩
      exact ⟨hes, hr⟩
    · intro hnone r' hbody
      exact deserialize_of_splits (hsplits.replace_rest hnone r') hbody
  · have hthrows : ∀ pdu, t.deserialize buf ≠ .ok pdu := by
      intro pdu hok
      rw [herror] at hok
      cases hok
    refine ⟨iff_of_false (fun ⟨pdu, hok⟩ => hthrows pdu hok) hnone, Or.inr ⟨what, herror⟩, ?_⟩
    exact fun pdu hok => absurd hok (hthrows pdu)

/-- A body that is cut short in its second C string. -/
theorem deserialize_iff_grammar_outbind :
    ((∃ pdu, deserialize .outbind [0x61, 0, 0x62] = .ok pdu) ↔
        ∃ es r, Grammar .outbind es r ∧ [0x61, 0, 0x62] = es.flatten ++ r) ∧
      ((∃ pdu, deserialize .outbind [0x61, 0, 0x62] = .ok pdu) ∨
        ∃ what, deserialize .outbind [0x61, 0, 0x62] = .error (.lengthError what)) ∧
      ∀ pdu, deserialize .outbind [0x61, 0, 0x62] = .ok pdu →
        ∃ es r, Splits .outbind pdu es r ∧ [0x61, 0, 0x62] = es.flatten ++ r ∧
          (∀ es' r', Grammar .outbind es' r' → [0x61, 0, 0x62] = es'.flatten ++ r' →
            es' = es ∧ r' = r) ∧
          (¬ HasOparam .outbind → ∀ r', es.flatten ++ r' ≠ [] →
            deserialize .outbind (es.flatten ++ r') = .ok pdu) :=
  deserialize_iff_grammar .outbind [0x61, 0, 0x62] (by decide)

end PduType

end Smpp
