import Smpp.Common.Serialization

/-!
# What a field decoder does to its view

The codec of a member of {lit}`pdu_meta<PDU>()` is one of a mandatory member, or
{lit}`smart` for the optional parameters.  Every decoder gets a pointer to the view of
{lit}`deserialize` and advances this view itself.

Main results:

- Theorem {lit}`FieldCodec.allOrNothing_iff`: a decoder takes a whole field or nothing,
  unless it is that of the optional parameters and one of them ends behind the view
  though others in front of it do not.

Current gaps:

- The constructor of {lit}`oparam` advances the view once for each parameter, so that
  what it has read is gone when it throws.
-/

namespace Smpp

/-- The codec argument {lit}`R` of {lit}`mem<R>(&pdu::member, name)`, that of the optional
parameters included. -/
inductive FieldCodec : Type → Type 1
  | mandatory {T : Type} (codec : Codec T) : FieldCodec T
  | smart : FieldCodec Oparam

namespace FieldCodec

variable {T : Type}

/-- {lit}`R::deserialize<T>(buf, name)`. -/
def deserialize {T : Type} (field : FieldCodec T) (name : String) : Reader T :=
  match field with
  | mandatory codec => codec.deserialize name
  | smart => Smart.deserialize name

/-- {lit}`field.Encodes val e`: the octets {lit}`e` are an encoding of {lit}`val`.  Optional
parameters are encoded by TLVs whose first values for each tag they are. -/
def Encodes {T : Type} (field : FieldCodec T) (val : T) (e : Octets) : Prop :=
  match field, val with
  | mandatory codec, val => codec.Encodes val e
  | smart, val => ∃ tlvs, ShortTlvs tlvs ∧ e = encodeTlvs tlvs ∧
      ∀ tag : OparamTag, val.oparams[tag]? = EmplaceMap.firstValue tlvs tag

/-- The octets start with at least one TLV, and behind those that are complete comes a
header whose length field is too large. -/
def Torn {T : Type} (field : FieldCodec T) (buf : Octets) : Prop :=
  match field with
  | mandatory _ => False
  | smart => ∃ tlv tlvs rest, ShortTlvs (tlv :: tlvs) ∧
      buf = encodeTlvs (tlv :: tlvs) ++ rest ∧ Overruns rest

/-- A decoder throws without touching the view, or takes exactly the octets of the field it
returns; octets behind a mandatory member do not matter. -/
structure AllOrNothing {T : Type} (field : FieldCodec T) (name : String) (buf : Octets) : Prop
    extends View.AllOrNothing (field.deserialize name) field.Encodes buf where
  extended : ∀ codec, field = mandatory codec → ∀ val rest more,
    (field.deserialize name).run buf = .ok val rest →
      (field.deserialize name).run (buf ++ more) = .ok val (rest ++ more)

/-- Every decoder of a mandatory member takes all or nothing. -/
theorem allOrNothing_mandatory (codec : Codec T) (name : String) (buf : Octets) :
    (mandatory codec).AllOrNothing name buf := by
  rcases codec.deserialize_cases name buf with ⟨val, e, rest, hencodes, rfl⟩ | ⟨what, hrun⟩
  · have hreads := codec.reads_deserialize name hencodes
    refine ⟨.of_ok (hreads rest) hencodes, ?_⟩
    intro _ _ val' rest' more hrun
    have hsame := (hreads rest).symm.trans hrun
    cases hsame
    rw [List.append_assoc]
    exact hreads (rest ++ more)
  · refine ⟨(View.allOrNothing_iff_of_error hrun).mpr rfl, ?_⟩
    intro _ _ val rest more hok
    have hsame := hrun.symm.trans hok
    cases hsame

/-- What the constructor of {lit}`oparam` does with complete TLVs. -/
theorem allOrNothing_smart_of_short {tlvs : List (OparamTag × Octets)} {tail : Octets}
    (hshort : ShortTlvs tlvs) (htail : tail.length < 4) (name : String) :
    smart.AllOrNothing name (encodeTlvs tlvs ++ tail) := by
  refine ⟨.of_ok (Oparam.run_ofView hshort htail) ?_, ?_⟩
  · exact ⟨tlvs, hshort, rfl, Oparam.getElem?_ofTlvs hshort⟩
  · intro codec hsame
    cases hsame

/-- In front of a length field that is too large it takes nothing exactly if it has not taken
a TLV before. -/
theorem allOrNothing_smart_iff_of_overruns {tlvs : List (OparamTag × Octets)} {rest : Octets}
    (hshort : ShortTlvs tlvs) (hoverruns : Overruns rest) (name : String) :
    smart.AllOrNothing name (encodeTlvs tlvs ++ rest) ↔ tlvs = [] := by
  have hrun := Oparam.run_ofView_of_error (readTlvs_of_overruns ∅ tlvs hshort hoverruns)
  constructor
  · intro hall
    have hrest := hall.throws _ _ hrun
    cases tlvs with
    | nil => rfl
    | cons tlv tlvs =>
        have hlength := congrArg List.length hrest
        simp [encodeTlvs] at hlength
        omega
  · rintro rfl
    refine ⟨(View.allOrNothing_iff_of_error hrun).mpr rfl, ?_⟩
    intro codec hsame
    cases hsame

/-- A field decoder takes a whole field or nothing exactly if the octets are not torn. -/
theorem allOrNothing_iff (field : FieldCodec T) (name : String) (buf : Octets) :
    field.AllOrNothing name buf ↔ ¬ field.Torn buf := by
  cases field with
  | mandatory codec => exact iff_of_true (allOrNothing_mandatory codec name buf) not_false
  | smart =>
      constructor
      · rintro hall ⟨tlv, tlvs, rest, hshort, rfl, hoverruns⟩
        have hnone := (allOrNothing_smart_iff_of_overruns hshort hoverruns name).mp hall
        cases hnone
      · intro hnot
        rcases exists_tlvs buf with ⟨tlvs, rest, hshort, rfl, htail | hoverruns⟩
        · exact allOrNothing_smart_of_short hshort htail name
        · rw [allOrNothing_smart_iff_of_overruns hshort hoverruns]
          cases tlvs with
          | nil => rfl
          | cons tlv tlvs => exact absurd ⟨tlv, tlvs, rest, hshort, rfl, hoverruns⟩ hnot

/-- A complete parameter of one octet is gone when the length of the second one turns out to
be too large. -/
theorem not_allOrNothing_second :
    ¬ ∀ {T : Type} (field : FieldCodec T) (name : String) (buf : Octets),
      field.AllOrNothing name buf := by
  intro hall
  have hoverruns : Overruns [0x04, 0x24, 0x00, 0x05, 0x42] :=
    ⟨[0x04, 0x24], [0x00, 0x05], [0x42], rfl, rfl, rfl, by decide⟩
  have hshort : ShortTlvs [(⟨0x001E⟩, [0x41])] := by simp [ShortTlvs]
  have hview : [0x00, 0x1E, 0x00, 0x01, 0x41, 0x04, 0x24, 0x00, 0x05, 0x42] =
      encodeTlvs [(⟨0x001E⟩, [0x41])] ++ [0x04, 0x24, 0x00, 0x05, 0x42] := rfl
  have htaken := hall smart "oparam"
    [0x00, 0x1E, 0x00, 0x01, 0x41, 0x04, 0x24, 0x00, 0x05, 0x42]
  rw [hview, allOrNothing_smart_iff_of_overruns hshort hoverruns] at htaken
  cases htaken

end FieldCodec

end Smpp
