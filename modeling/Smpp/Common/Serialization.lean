import Smpp.Common.FieldCodecs
import Smpp.Param.Oparam

/-!
# Field lists

{lit}`pdu_meta<PDU>()` lists the members of a PDU with their codecs;
{lit}`serialize_to` and {lit}`deserialize` fold over that list.  Here the members are a
nested tuple indexed by the list, and the optional parameters can only close a
list, as in every PDU of the library.

{lit}`FieldList.Splits` is the grammar of a body: which cuts of an octet string into
field encodings and a remainder are allowed, and which member values they carry.

Main results:

- Theorems {lit}`FieldList.deserialize_of_splits` and
  {lit}`FieldList.deserialize_cases`: the decoder returns exactly on the strings of
  the grammar and throws a length error on all others.
- Theorem {lit}`FieldList.Splits.unique`: a string has at most one cut.
- Theorem {lit}`FieldList.deserialize_encode_iff`: what the encoder wrote decodes to
  the members again exactly when no C string holds a NUL.
-/

namespace Smpp

/-! ## Optional parameters as the last field -/

/-- {lit}`smart::deserialize<oparam>`; the field name is not used. -/
def Smart.deserialize (_name : String) : Reader Oparam := Oparam.ofView

/-- {lit}`smart::serialize_to<oparam>`. -/
def Smart.serializeTo (val : Oparam) : Writer Unit := val.serialize

/-- {lit}`TlvStream o r`: the octets {lit}`r` are complete TLVs followed by fewer than four
octets, and {lit}`o` holds the first value of each tag and nothing else. -/
def TlvStream (o : Oparam) (r : Octets) : Prop :=
  ∃ tlvs tail, ShortTlvs tlvs ∧ tail.length < 4 ∧ r = encodeTlvs tlvs ++ tail ∧
    ∀ tag : OparamTag, o.oparams[tag]? = EmplaceMap.firstValue tlvs tag

theorem tlvStream_ofTlvs {tlvs : List (OparamTag × Octets)} {tail : Octets}
    (hshort : ShortTlvs tlvs) (htail : tail.length < 4) :
    TlvStream (Oparam.ofTlvs tlvs hshort) (encodeTlvs tlvs ++ tail) :=
  ⟨tlvs, tail, hshort, htail, rfl, Oparam.getElem?_ofTlvs hshort⟩

/-- The constructor of {lit}`oparam` reads a TLV stream. -/
theorem run_smart_of_tlvStream {o : Oparam} {r : Octets} (hstream : TlvStream o r)
    (name : String) : ∃ rest, (Smart.deserialize name).run r = .ok o rest := by
  rcases hstream with ⟨tlvs, tail, hshort, htail, rfl, hvalues⟩
  have hstore : Oparam.ofTlvs tlvs hshort = o := by
    apply Oparam.ext
    apply Std.ExtTreeMap.ext_getElem?
    intro tag
    rw [Oparam.getElem?_ofTlvs, hvalues]
  exact ⟨tail, hstore ▸ Oparam.run_ofView hshort htail⟩

/-- The optional parameters that were read take no more octets than the stream. -/
theorem TlvStream.size_le {o : Oparam} {r : Octets} (hstream : TlvStream o r) :
    (o.oparams.toList.map fun tlv => 4 + tlv.2.length).sum ≤ r.length := by
  rcases hstream with ⟨tlvs, tail, _, _, rfl, hvalues⟩
  have hlength : (encodeTlvs tlvs).length = (tlvs.map fun tlv => 4 + tlv.2.length).sum := by
    simp only [encodeTlvs, List.length_flatMap, length_encodeTlv]
  calc
    _ ≤ (tlvs.map fun tlv => 4 + tlv.2.length).sum := EmplaceMap.sum_toList_le hvalues _
    _ = (encodeTlvs tlvs).length := hlength.symm
    _ ≤ (encodeTlvs tlvs ++ tail).length := by simp

/-- A stream determines the store. -/
theorem TlvStream.unique {o o' : Oparam} {r : Octets} (hstream : TlvStream o r)
    (hstream' : TlvStream o' r) : o = o' := by
  rcases run_smart_of_tlvStream hstream "" with ⟨rest, hrun⟩
  rcases run_smart_of_tlvStream hstream' "" with ⟨rest', hrun'⟩
  rw [hrun] at hrun'
  injection hrun'

/-! ## Lists of fields -/

/-- {lit}`std::tuple{ mem<R>(&pdu::member, name)... }`, indexed by the tuple of the
member types. -/
inductive FieldList : Type → Type 1
  | nil : FieldList Unit
  | smart (name : String) : FieldList Oparam
  | mem {T M : Type} (codec : Codec T) (name : String) (rest : FieldList M) :
      FieldList (T × M)

namespace FieldList

variable {M : Type}

/-- The fold of {lit}`smpp::deserialize` over the members, from left to right. -/
def deserialize {M : Type} (fields : FieldList M) : Reader M :=
  match fields with
  | nil => pure ()
  | smart name => Smart.deserialize name
  | mem codec name rest => do
      let val ← codec.deserialize name
      let vals ← rest.deserialize
      return (val, vals)

/-- The fold of {lit}`smpp::serialize_to` over the members, from left to right. -/
def serializeTo {M : Type} (fields : FieldList M) (vals : M) : Writer Unit :=
  match fields, vals with
  | nil, _ => pure ()
  | smart _, val => Smart.serializeTo val
  | mem codec name rest, (val, vals) => do
      codec.serializeTo val name
      rest.serializeTo vals

/-- A property of codecs and values holds for every mandatory member. -/
def All {M : Type} (P : ∀ {T : Type}, Codec T → T → Prop) (fields : FieldList M)
    (vals : M) : Prop :=
  match fields, vals with
  | nil, _ | smart _, _ => True
  | mem codec _ rest, (val, vals) => P codec val ∧ rest.All P vals

/-- Every length check of the encoder passes. -/
def Fits (fields : FieldList M) (vals : M) : Prop :=
  fields.All Codec.Fits vals

/-- No C string holds a NUL. -/
def NulFree (fields : FieldList M) (vals : M) : Prop :=
  fields.All Codec.NulFree vals

/-- Every flag record survives packing and unpacking. -/
def FlagsKept (fields : FieldList M) (vals : M) : Prop :=
  fields.All Codec.FlagsKept vals

/-- Every flag record holds declared enumerators only. -/
def Declared (fields : FieldList M) (vals : M) : Prop :=
  fields.All Codec.Declared vals

/-- The limit of every counted string fits its length octet. -/
def LimitsFit {M : Type} : FieldList M → Prop
  | nil | smart _ => True
  | mem codec _ rest => codec.LimitFits ∧ rest.LimitsFit

/-- The list does not consist of optional parameters alone, so that only the empty
list has an empty encoding. -/
def Anchored {M : Type} : FieldList M → Prop
  | nil | mem _ _ _ => True
  | smart _ => False

/-! ## The grammar of a body -/

/-- {lit}`fields.Splits vals es r`: {lit}`es` are encodings of the mandatory members, in
order, and {lit}`r` is what follows them; with optional parameters it has to be a TLV
stream, without them it is arbitrary. -/
def Splits {M : Type} (fields : FieldList M) (vals : M) (es : List Octets) (r : Octets) :
    Prop :=
  match fields, vals with
  | nil, _ => es = []
  | smart _, val => es = [] ∧ TlvStream val r
  | mem codec _ rest, (val, vals) =>
      ∃ e es', es = e :: es' ∧ codec.Encodes val e ∧ rest.Splits vals es' r

/-- {lit}`fields.Grammar es r`: the cuts of the grammar without the member values. -/
def Grammar {M : Type} (fields : FieldList M) (es : List Octets) (r : Octets) : Prop :=
  match fields with
  | nil => es = []
  | smart _ => es = [] ∧ ∃ tlvs tail, ShortTlvs tlvs ∧ tail.length < 4 ∧
      r = encodeTlvs tlvs ++ tail
  | mem codec _ rest => ∃ e es', es = e :: es' ∧ codec.Grammar e ∧ rest.Grammar es' r

/-- Every cut of the grammar carries member values. -/
theorem grammar_iff (fields : FieldList M) (es : List Octets) (r : Octets) :
    fields.Grammar es r ↔ ∃ vals, fields.Splits vals es r := by
  induction fields generalizing es with
  | nil => exact ⟨fun hes => ⟨(), hes⟩, fun ⟨_, hes⟩ => hes⟩
  | smart name =>
      constructor
      · rintro ⟨hes, tlvs, tail, hshort, htail, rfl⟩
        exact ⟨_, hes, tlvStream_ofTlvs hshort htail⟩
      · rintro ⟨_, hes, tlvs, tail, hshort, htail, hr, _⟩
        exact ⟨hes, tlvs, tail, hshort, htail, hr⟩
  | mem codec name fields ih =>
      constructor
      · rintro ⟨e, es', hes, hfirst, hrest⟩
        rcases (codec.grammar_iff e).mp hfirst with ⟨val, hencodes⟩
        rcases (ih es').mp hrest with ⟨vals, hsplits⟩
        exact ⟨(val, vals), e, es', hes, hencodes, hsplits⟩
      · rintro ⟨⟨val, vals⟩, e, es', hes, hencodes, hsplits⟩
        exact ⟨e, es', hes, (codec.grammar_iff e).mpr ⟨val, hencodes⟩,
          (ih es').mpr ⟨vals, hsplits⟩⟩

/-- The list ends in optional parameters. -/
def HasOparam {M : Type} : FieldList M → Prop
  | nil => False
  | smart _ => True
  | mem _ _ rest => rest.HasOparam

/-- Without optional parameters anything may follow the mandatory members. -/
theorem Splits.replace_rest {fields : FieldList M} {vals : M} {es : List Octets}
    {r : Octets} (hsplits : fields.Splits vals es r) (hnone : ¬ fields.HasOparam)
    (r' : Octets) : fields.Splits vals es r' := by
  induction fields generalizing es with
  | nil => exact hsplits
  | smart name => exact absurd trivial hnone
  | mem codec name fields ih =>
      rcases hsplits with ⟨e, es', hes, hencodes, hrest⟩
      exact ⟨e, es', hes, hencodes, ih hrest hnone⟩

/-- The decoder returns the members of every string of the grammar. -/
theorem deserialize_of_splits (fields : FieldList M) {vals : M} {es : List Octets}
    {r : Octets} (hsplits : fields.Splits vals es r) :
    ∃ rest, fields.deserialize.run (es.flatten ++ r) = .ok vals rest := by
  induction fields generalizing es with
  | nil => exact ⟨_, rfl⟩
  | smart name =>
      rcases hsplits with ⟨rfl, hstream⟩
      exact run_smart_of_tlvStream hstream name
  | mem codec name fields ih =>
      rcases vals with ⟨val, vals⟩
      rcases hsplits with ⟨e, es, rfl, hencodes, hrest⟩
      rcases ih hrest with ⟨rest, hrun⟩
      refine ⟨rest, ?_⟩
      have hfirst := codec.reads_deserialize name hencodes (es.flatten ++ r)
      rw [List.flatten_cons, List.append_assoc]
      simp only [deserialize, EStateM.run_bind, hfirst, hrun, EStateM.run_pure]

/-- On every other string the decoder throws a length error. -/
theorem deserialize_cases (fields : FieldList M) (buf : Octets) :
    (∃ vals es r, fields.Splits vals es r ∧ buf = es.flatten ++ r) ∨
      ∃ what rest, fields.deserialize.run buf = .error (.lengthError what) rest := by
  induction fields generalizing buf with
  | nil => exact Or.inl ⟨(), [], buf, rfl, rfl⟩
  | smart name =>
      rcases Oparam.run_ofView_cases buf with ⟨tlvs, tail, hshort, htail, rfl⟩ | hfault
      · exact Or.inl ⟨_, [], _, ⟨rfl, tlvStream_ofTlvs hshort htail⟩, rfl⟩
      · exact Or.inr hfault
  | mem codec name fields ih =>
      rcases codec.deserialize_cases name buf with
        ⟨val, e, rest, hencodes, rfl⟩ | ⟨what, hrun⟩
      · have hfirst := codec.reads_deserialize name hencodes rest
        rcases ih rest with ⟨vals, es, r, hsplits, rfl⟩ | ⟨what, rest', hrun⟩
        · exact Or.inl ⟨(val, vals), e :: es, r, ⟨e, es, rfl, hencodes, hsplits⟩, by simp⟩
        · refine Or.inr ⟨what, rest', ?_⟩
          simp only [deserialize, EStateM.run_bind, hfirst, hrun]
      · refine Or.inr ⟨what, buf, ?_⟩
        simp only [deserialize, EStateM.run_bind, hrun]

/-- A string has at most one cut, and the cut determines the members. -/
theorem Splits.unique {fields : FieldList M} {vals vals' : M} {es es' : List Octets}
    {r r' : Octets} (hsplits : fields.Splits vals es r) (hsplits' : fields.Splits vals' es' r')
    (heq : es.flatten ++ r = es'.flatten ++ r') : vals = vals' ∧ es = es' ∧ r = r' := by
  induction fields generalizing es es' with
  | nil =>
      cases hsplits
      cases hsplits'
      exact ⟨rfl, rfl, heq⟩
  | smart name =>
      rcases hsplits with ⟨rfl, hstream⟩
      rcases hsplits' with ⟨rfl, hstream'⟩
      have hr : r = r' := heq
      subst hr
      exact ⟨hstream.unique hstream', rfl, rfl⟩
  | mem codec name fields ih =>
      rcases vals with ⟨val, vals⟩
      rcases vals' with ⟨val', vals'⟩
      rcases hsplits with ⟨e, es, rfl, hencodes, hrest⟩
      rcases hsplits' with ⟨e', es', rfl, hencodes', hrest'⟩
      rw [List.flatten_cons, List.flatten_cons, List.append_assoc, List.append_assoc] at heq
      obtain ⟨rfl, rfl, htail⟩ := (codec.reads_deserialize name hencodes).unique
        (codec.reads_deserialize name hencodes') heq
      rcases ih hrest hrest' htail with ⟨rfl, rfl, rfl⟩
      exact ⟨rfl, rfl, rfl⟩

/-! ## What the encoder writes -/

/-- The encodings of the mandatory members. -/
def encodings {M : Type} (fields : FieldList M) (vals : M) : List Octets :=
  match fields, vals with
  | nil, _ | smart _, _ => []
  | mem codec _ rest, (val, vals) => codec.encode val :: rest.encodings vals

/-- The encoding of the optional parameters, if the list ends in them. -/
def tlvPart {M : Type} (fields : FieldList M) (vals : M) : Octets :=
  match fields, vals with
  | nil, _ => []
  | smart _, val => encodeTlvs val.oparams.toList
  | mem _ _ rest, (_, vals) => rest.tlvPart vals

/-- The octets the encoder appends. -/
def encode (fields : FieldList M) (vals : M) : Octets :=
  (fields.encodings vals).flatten ++ fields.tlvPart vals

/-- The number of octets the encoder appends: what each mandatory member takes, and
four octets and the value for each optional parameter. -/
def size {M : Type} (fields : FieldList M) (vals : M) : Nat :=
  match fields, vals with
  | nil, _ => 0
  | smart _, val => (val.oparams.toList.map fun tlv => 4 + tlv.2.length).sum
  | mem codec _ rest, (val, vals) => codec.size val + rest.size vals

theorem length_encode (fields : FieldList M) (vals : M) :
    (fields.encode vals).length = fields.size vals := by
  induction fields with
  | nil => rfl
  | smart name =>
      simp only [encode, encodings, tlvPart, size, encodeTlvs, List.flatten_nil,
        List.nil_append, List.length_flatMap, length_encodeTlv]
  | mem codec name fields ih =>
      rcases vals with ⟨val, vals⟩
      have hrest := ih vals
      simp only [encode, encodings, tlvPart, size, List.flatten_cons, List.length_append,
        Codec.length_encode] at hrest ⊢
      omega

/-- Members that were decoded take no more octets than they were decoded from. -/
theorem size_le_of_splits (fields : FieldList M) {vals : M} {es : List Octets} {r : Octets}
    (hsplits : fields.Splits vals es r) : fields.size vals ≤ (es.flatten ++ r).length := by
  induction fields generalizing es with
  | nil => exact Nat.zero_le _
  | smart name =>
      rcases hsplits with ⟨rfl, hstream⟩
      simpa [size] using hstream.size_le
  | mem codec name fields ih =>
      rcases vals with ⟨val, vals⟩
      rcases hsplits with ⟨e, es, rfl, hencodes, hrest⟩
      have hfirst := codec.length_of_encodes hencodes
      have hlater := ih hrest
      rw [List.length_append] at hlater
      simp only [size, List.flatten_cons, List.length_append]
      omega

/-- The encoder appends the encoding when every length check passes and throws a
length error otherwise. -/
theorem run_serializeTo (fields : FieldList M) (vals : M) (vec : Octets) :
    (fields.Fits vals ∧
        (fields.serializeTo vals).run vec = .ok () (vec ++ fields.encode vals)) ∨
      (¬ fields.Fits vals ∧
        ∃ what vec', (fields.serializeTo vals).run vec = .error (.lengthError what) vec') := by
  induction fields generalizing vec with
  | nil => exact Or.inl ⟨trivial, by simp [serializeTo, encode, encodings, tlvPart]⟩
  | smart name => exact Or.inl ⟨trivial, Oparam.run_serialize vals vec⟩
  | mem codec name fields ih =>
      rcases vals with ⟨val, vals⟩
      rcases codec.run_serializeTo val name vec with ⟨hfits, hrun⟩ | ⟨hfits, what, hrun⟩
      · rcases ih vals (vec ++ codec.encode val) with
          ⟨hrest, hrunRest⟩ | ⟨hrest, what, vec', hrunRest⟩
        · refine Or.inl ⟨⟨hfits, hrest⟩, ?_⟩
          simp only [serializeTo, EStateM.run_bind, hrun, hrunRest]
          simp [encode, encodings, tlvPart]
        · refine Or.inr ⟨fun hall => hrest hall.2, what, vec', ?_⟩
          simp only [serializeTo, EStateM.run_bind, hrun, hrunRest]
      · refine Or.inr ⟨fun hall => hfits hall.1, what, vec, ?_⟩
        simp only [serializeTo, EStateM.run_bind, hrun]

/-- Only the empty list has members with an empty encoding. -/
theorem eq_of_encode_eq_nil (fields : FieldList M) (hanchored : fields.Anchored) {vals : M}
    (hencode : fields.encode vals = []) (vals' : M) : vals = vals' := by
  cases fields with
  | nil => rfl
  | smart name => exact hanchored.elim
  | mem codec name fields =>
      have hfirst : codec.encode vals.1 = [] := by
        have hparts : codec.encode vals.1 ++ fields.encode vals.2 = [] := by
          simpa [encode, encodings, tlvPart] using hencode
        exact (List.append_eq_nil_iff.mp hparts).1
      exact absurd hfirst (codec.encode_ne_nil vals.1)

/-- Members without lossy values are encoded by a string of the grammar. -/
theorem splits_encode (fields : FieldList M) (hlimits : fields.LimitsFit) {vals : M}
    (hfits : fields.Fits vals) (hnul : fields.NulFree vals) (hflags : fields.FlagsKept vals) :
    fields.Splits vals (fields.encodings vals) (fields.tlvPart vals) := by
  induction fields with
  | nil => rfl
  | smart name =>
      refine ⟨rfl, vals.oparams.toList, [], shortTlvs_toList vals, by simp, ?_, ?_⟩
      · simp [tlvPart]
      · intro tag
        exact (EmplaceMap.firstValue_toList vals.oparams tag).symm
  | mem codec name fields ih =>
      rcases vals with ⟨val, vals⟩
      have hencodes := (codec.encodes_encode_iff hlimits.1 val).mpr
        ⟨hfits.1, hnul.1, hflags.1⟩
      exact ⟨_, _, rfl, hencodes, ih hlimits.2 hfits.2 hnul.2 hflags.2⟩

/-- Members without a NUL in a C string are encoded by a string of the grammar, whatever becomes
of their flags. -/
theorem grammar_encode (fields : FieldList M) (hlimits : fields.LimitsFit) {vals : M}
    (hfits : fields.Fits vals) (hnul : fields.NulFree vals) :
    fields.Grammar (fields.encodings vals) (fields.tlvPart vals) := by
  induction fields with
  | nil => rfl
  | smart name =>
      exact ⟨rfl, vals.oparams.toList, [], shortTlvs_toList vals, by simp, by simp [tlvPart]⟩
  | mem codec name fields ih =>
      rcases vals with ⟨val, vals⟩
      exact ⟨_, _, rfl, codec.grammar_encode hlimits.1 hfits.1 hnul.1,
        ih hlimits.2 hfits.2 hnul.2⟩

/-- Members that were decoded pass every check of the encoder. -/
theorem fits_of_splits (fields : FieldList M) {vals : M} {es : List Octets} {r : Octets}
    (hsplits : fields.Splits vals es r) :
    fields.Fits vals ∧ fields.NulFree vals ∧ fields.FlagsKept vals := by
  induction fields generalizing es with
  | nil | smart name => exact ⟨trivial, trivial, trivial⟩
  | mem codec name fields ih =>
      rcases vals with ⟨val, vals⟩
      rcases hsplits with ⟨e, es, rfl, hencodes, hrest⟩
      rcases codec.fits_of_encodes hencodes with ⟨hfits, hnul, hflags⟩
      rcases ih hrest with ⟨hfits', hnul', hflags'⟩
      exact ⟨⟨hfits, hfits'⟩, ⟨hnul, hnul'⟩, ⟨hflags, hflags'⟩⟩

/-- Declared enumerators survive packing and unpacking. -/
theorem flagsKept_of_declared (fields : FieldList M) {vals : M}
    (hdeclared : fields.Declared vals) : fields.FlagsKept vals := by
  induction fields with
  | nil | smart name => trivial
  | mem codec name fields ih =>
      exact ⟨codec.flagsKept_of_declared hdeclared.1, ih hdeclared.2⟩

/-- If the members come back, no C string holds a NUL. -/
private theorem nulFree_of_run_encode (fields : FieldList M) (hlimits : fields.LimitsFit)
    {vals : M} (hfits : fields.Fits vals) (hflags : fields.FlagsKept vals) {rest : Octets}
    (hrun : fields.deserialize.run (fields.encode vals) = .ok vals rest) :
    fields.NulFree vals := by
  induction fields with
  | nil | smart name => trivial
  | mem codec name fields ih =>
      rcases vals with ⟨val, vals⟩
      have hcut : (mem codec name fields).encode (val, vals) =
          codec.encode val ++ fields.encode vals := by
        simp [encode, encodings, tlvPart]
      rw [hcut] at hrun
      simp only [deserialize, EStateM.run_bind] at hrun
      -- the first member came back unchanged, so its own encoding was read exactly
      cases hfirst : (codec.deserialize name).run (codec.encode val ++ fields.encode vals) with
      | error e view => simp [hfirst] at hrun
      | ok val' view =>
          simp only [hfirst] at hrun
          cases hlast : fields.deserialize.run view with
          | error e view => simp [hlast] at hrun
          | ok vals' view' =>
              simp only [hlast, EStateM.run_pure, EStateM.Result.ok.injEq,
                Prod.mk.injEq] at hrun
              rcases hrun with ⟨⟨rfl, rfl⟩, rfl⟩
              have hnul := codec.nulFree_of_run_encode name hfirst
              have hencodes := (codec.encodes_encode_iff hlimits.1 val').mpr
                ⟨hfits.1, hnul, hflags.1⟩
              have hexact := codec.reads_deserialize name hencodes (fields.encode vals')
              rw [hfirst] at hexact
              injection hexact with _ hview
              subst hview
              exact ⟨hnul, ih hlimits.2 hfits.2 hflags.2 hlast⟩

/-- What the encoder wrote decodes to the members again exactly when no C string
holds a NUL. -/
theorem deserialize_encode_iff (fields : FieldList M) (hlimits : fields.LimitsFit) {vals : M}
    (hfits : fields.Fits vals) (hflags : fields.FlagsKept vals) :
    (∃ rest, fields.deserialize.run (fields.encode vals) = .ok vals rest) ↔
      fields.NulFree vals := by
  constructor
  · rintro ⟨rest, hrun⟩
    exact nulFree_of_run_encode fields hlimits hfits hflags hrun
  · intro hnul
    exact fields.deserialize_of_splits (fields.splits_encode hlimits hfits hnul hflags)

end FieldList

end Smpp
