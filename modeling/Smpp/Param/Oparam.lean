import Smpp.Common.Octets
import Smpp.Library.BigEndian
import Smpp.Library.EmplaceMap

/-!
# Optional parameters

{lit}`smpp::oparam` stores tag-length-value parameters in a {lit}`std::map`.  The
constructor from a view reads TLVs until fewer than four octets are left; the
first value of a tag wins.  {lit}`serialize` lists the map in tag order.

The type carries the invariant that no stored value is longer than 65535 octets,
which the length field of the constructor and the check of {lit}`set_as_string`
establish.

Main results:

- Theorem {lit}`reads_readTlv`: one turn of the loop reads one encoded TLV.
- Theorem {lit}`readTlvs_encodeTlvs`: the loop reads a sequence of TLVs and stops in
  front of fewer than four octets.
- Theorem {lit}`readTlvs_cases`: there is no other way for the loop to return, and
  it fails only with a length error.
- Theorem {lit}`readTlvs_of_overruns`: when it fails, the TLVs it has read are gone.
- Theorem {lit}`Oparam.run_serialize`: serialization appends the TLVs in tag order.
-/

namespace Smpp

open Std

/-- {lit}`enum class oparam_tag : uint16_t`; any tag can arrive on the wire. -/
structure OparamTag where
  toU16 : UInt16
deriving DecidableEq, Repr

namespace OparamTag

instance : Ord OparamTag := ⟨compareOn OparamTag.toU16⟩

instance : TransOrd OparamTag :=
  inferInstanceAs (TransCmp (compareOn OparamTag.toU16))

instance : LawfulEqOrd OparamTag where
  compare_self := ReflOrd.compare_self (α := UInt16)
  eq_of_compare := by
    intro a b hcompare
    have heq : a.toU16 = b.toU16 := LawfulEqOrd.eq_of_compare hcompare
    cases a
    cases b
    simpa using heq

end OparamTag

/-- {lit}`std::map<oparam_tag, std::string>`. -/
abbrev TlvMap := ExtTreeMap OparamTag Octets

/-! ## 16-bit numbers on the wire -/

/-- The lambda {lit}`serialize_u16`. -/
def serializeU16 (val : UInt16) : Writer Unit := do
  append [((val >>> 8) &&& 0xFF).toUInt8]
  append [((val >>> 0) &&& 0xFF).toUInt8]

/-- The lambda {lit}`deserialize_u16`, on a view of exactly two octets. -/
def deserializeU16 : Octets → UInt16
  | [b₀, b₁] => b₀.toUInt16 <<< 8 ||| b₁.toUInt16
  | _ => 0

theorem run_serializeU16 (val : UInt16) (vec : Octets) :
    (serializeU16 val).run vec = .ok () (vec ++ BigEndian.octets 2 val.toNat) := by
  have hhigh : (val >>> 8).toUInt8 = UInt8.ofNat (val.toNat / 256) := by
    apply UInt8.toNat_inj.mp
    simp [Nat.shiftRight_eq_div_pow]
  simp [serializeU16, hhigh, BigEndian.octets]

theorem toNat_deserializeU16 {bs : Octets} (hlength : bs.length = 2) :
    (deserializeU16 bs).toNat = BigEndian.value bs := by
  rcases List.length_eq_two.mp hlength with ⟨b₀, b₁, rfl⟩
  exact BigEndian.toNat_joinU16 b₀ b₁

theorem toNat_deserializeU16_octets {n : Nat} (hlt : n < 65536) :
    (deserializeU16 (BigEndian.octets 2 n)).toNat = n := by
  rw [toNat_deserializeU16 (BigEndian.length_octets 2 n), BigEndian.value_octets]
  exact Nat.mod_eq_of_lt hlt

theorem octets_deserializeU16 {bs : Octets} (hlength : bs.length = 2) :
    BigEndian.octets 2 (deserializeU16 bs).toNat = bs := by
  have hoctets := BigEndian.octets_value bs
  rw [hlength] at hoctets
  rw [toNat_deserializeU16 hlength, hoctets]

/-! ## TLVs -/

/-- One TLV on the wire: tag, length, value. -/
def encodeTlv (tlv : OparamTag × Octets) : Octets :=
  BigEndian.octets 2 tlv.1.toU16.toNat ++ (BigEndian.octets 2 tlv.2.length ++ tlv.2)

/-- A sequence of TLVs on the wire. -/
def encodeTlvs (tlvs : List (OparamTag × Octets)) : Octets :=
  tlvs.flatMap encodeTlv

/-- Every value fits the 16-bit length field. -/
def ShortTlvs (tlvs : List (OparamTag × Octets)) : Prop :=
  ∀ tlv ∈ tlvs, tlv.2.length ≤ 65535

@[simp]
theorem length_encodeTlv (tlv : OparamTag × Octets) :
    (encodeTlv tlv).length = 4 + tlv.2.length := by
  simp [encodeTlv]
  omega

/-- {lit}`oparam::header_length`. -/
def oparamHeaderLength : Nat := 4

/-- The body of the {lit}`while` loop of {lit}`oparam(std::span<const uint8_t>*)`. -/
def readTlv (oparams : TlvMap) : Reader TlvMap := do
  let buf ← get
  let tag : OparamTag := ⟨deserializeU16 (← View.subspan 0 2)⟩
  let valLength := deserializeU16 (← View.subspan 2 2)
  if valLength.toNat > (← View.sizeSub buf.length oparamHeaderLength) then
    throw (.lengthError "oparam val length is bigger than available buf")
  else
    let valBuf ← View.subspan oparamHeaderLength valLength.toNat
    View.last (← View.sizeSub buf.length (valLength.toNat + oparamHeaderLength))
    return oparams.insertIfNew tag valBuf

/-- The part of the loop body in front of the length check. -/
theorem run_readTlv {t l : Octets} (rest : Octets) (ht : t.length = 2) (hl : l.length = 2)
    (oparams : TlvMap) :
    (readTlv oparams).run (t ++ (l ++ rest)) =
      if rest.length < (deserializeU16 l).toNat then
        .error (.lengthError "oparam val length is bigger than available buf")
          (t ++ (l ++ rest))
      else
        .ok (oparams.insertIfNew ⟨deserializeU16 t⟩
            (rest.take (deserializeU16 l).toNat))
          (rest.drop (deserializeU16 l).toNat) := by
  rcases List.length_eq_two.mp ht with ⟨t₀, t₁, rfl⟩
  rcases List.length_eq_two.mp hl with ⟨l₀, l₁, rfl⟩
  generalize hn : (deserializeU16 [l₀, l₁]).toNat = n
  have hheader : oparamHeaderLength ≤ rest.length + 4 := by simp [oparamHeaderLength]
  have hrest : rest.length + 4 - oparamHeaderLength = rest.length := by
    simp [oparamHeaderLength]
  unfold readTlv
  simp only [List.cons_append, List.nil_append, EStateM.run_bind, EStateM.run_get,
    View.run_subspan (show 0 + 2 ≤ (t₀ :: t₁ :: l₀ :: l₁ :: rest).length by simp),
    View.run_subspan (show 2 + 2 ≤ (t₀ :: t₁ :: l₀ :: l₁ :: rest).length by simp),
    List.length_cons, View.run_sizeSub hheader, List.drop_zero, List.take_succ_cons,
    List.take_zero, List.drop_succ_cons, hn, hrest]
  by_cases hlong : rest.length < n
  · rw [if_pos hlong, if_pos hlong, View.run_throw]
  · have hval : oparamHeaderLength + n ≤ (t₀ :: t₁ :: l₀ :: l₁ :: rest).length := by
      simp [oparamHeaderLength]
      omega
    have hsub : n + oparamHeaderLength ≤ rest.length + 4 := by
      simp [oparamHeaderLength]
      omega
    have hlast : rest.length + 4 - (n + oparamHeaderLength) ≤
        (t₀ :: t₁ :: l₀ :: l₁ :: rest).length := by
      simp
    have hcut : (t₀ :: t₁ :: l₀ :: l₁ :: rest).length -
        (rest.length + 4 - (n + oparamHeaderLength)) = n + 4 := by
      simp [oparamHeaderLength]
      omega
    rw [if_neg hlong, if_neg hlong]
    simp only [EStateM.run_bind, View.run_subspan hval, View.run_sizeSub hsub,
      View.run_last hlast, hcut, EStateM.run_pure]
    simp [oparamHeaderLength]

/-- One turn of the loop reads one encoded TLV. -/
theorem reads_readTlv (oparams : TlvMap) (tag : OparamTag) {val : Octets}
    (hshort : val.length ≤ 65535) :
    View.Reads (readTlv oparams) (encodeTlv (tag, val)) (oparams.insertIfNew tag val) := by
  intro rest
  have htag : (⟨deserializeU16 (BigEndian.octets 2 tag.toU16.toNat)⟩ : OparamTag) = tag := by
    have hlt := tag.toU16.toNat_lt
    have heq : deserializeU16 (BigEndian.octets 2 tag.toU16.toNat) = tag.toU16 :=
      UInt16.toNat_inj.mp (toNat_deserializeU16_octets (by omega))
    rw [heq]
  have hlength : (deserializeU16 (BigEndian.octets 2 val.length)).toNat = val.length :=
    toNat_deserializeU16_octets (by omega)
  unfold encodeTlv
  rw [List.append_assoc, List.append_assoc, run_readTlv _ (by simp) (by simp), hlength, htag]
  simp

/-- A tag and a length that is larger than the number of octets behind it. -/
def Overruns (buf : Octets) : Prop :=
  ∃ t l rest, t.length = 2 ∧ l.length = 2 ∧ buf = t ++ (l ++ rest) ∧
    rest.length < (deserializeU16 l).toNat

theorem Overruns.length_le {buf : Octets} (hoverruns : Overruns buf) : 4 ≤ buf.length := by
  rcases hoverruns with ⟨t, l, rest, ht, hl, rfl, _⟩
  rw [List.length_append, List.length_append]
  omega

/-- The loop body fails in front of a value that is not there. -/
theorem run_readTlv_of_overruns (oparams : TlvMap) {buf : Octets} (hoverruns : Overruns buf) :
    (readTlv oparams).run buf =
      .error (.lengthError "oparam val length is bigger than available buf") buf := by
  rcases hoverruns with ⟨t, l, rest, ht, hl, rfl, hlong⟩
  rw [run_readTlv rest ht hl, if_pos hlong]

/-- A view of at least four octets starts with a tag and a length. -/
theorem exists_tlvHeader {buf : Octets} (hlength : 4 ≤ buf.length) :
    ∃ t l rest, t.length = 2 ∧ l.length = 2 ∧ buf = t ++ (l ++ rest) := by
  match buf, hlength with
  | t₀ :: t₁ :: l₀ :: l₁ :: rest, _ => exact ⟨[t₀, t₁], [l₀, l₁], rest, rfl, rfl, rfl⟩

/-- At least four octets start with a TLV, or their length field is too large. -/
theorem exists_tlv {buf : Octets} (hlength : 4 ≤ buf.length) :
    (∃ tag val rest, val.length ≤ 65535 ∧ buf = encodeTlv (tag, val) ++ rest) ∨
      Overruns buf := by
  rcases exists_tlvHeader hlength with ⟨t, l, rest, ht, hl, rfl⟩
  by_cases hlong : rest.length < (deserializeU16 l).toNat
  · exact Or.inr ⟨t, l, rest, ht, hl, rfl, hlong⟩
  · have hval : (rest.take (deserializeU16 l).toNat).length = (deserializeU16 l).toNat := by
      rw [List.length_take]
      omega
    have hbound := (deserializeU16 l).toNat_lt
    refine Or.inl ⟨⟨deserializeU16 t⟩, rest.take (deserializeU16 l).toNat,
      rest.drop (deserializeU16 l).toNat, by omega, ?_⟩
    rw [encodeTlv, hval, octets_deserializeU16 ht, octets_deserializeU16 hl]
    simp

/-- On at least four octets the loop body reads one TLV or fails in front of it. -/
theorem readTlv_cases (oparams : TlvMap) {buf : Octets} (hlength : 4 ≤ buf.length) :
    (∃ tag val rest, val.length ≤ 65535 ∧ buf = encodeTlv (tag, val) ++ rest ∧
        (readTlv oparams).run buf = .ok (oparams.insertIfNew tag val) rest) ∨
      ∃ what, (readTlv oparams).run buf = .error (.lengthError what) buf := by
  rcases exists_tlv hlength with ⟨tag, val, rest, hval, rfl⟩ | hoverruns
  · exact Or.inl ⟨tag, val, rest, hval, rfl, reads_readTlv oparams tag hval rest⟩
  · exact Or.inr ⟨_, run_readTlv_of_overruns oparams hoverruns⟩

/-- The loop body shortens the view. -/
theorem length_lt_of_readTlv {oparams oparams' : TlvMap} {buf rest : Octets}
    (hlength : 4 ≤ buf.length) (hrun : (readTlv oparams).run buf = .ok oparams' rest) :
    rest.length < buf.length := by
  rcases readTlv_cases oparams hlength with ⟨tag, val, rest', _, rfl, hrun'⟩ | ⟨what, hrun'⟩
  · rw [hrun] at hrun'
    cases hrun'
    rw [List.length_append, length_encodeTlv]
    omega
  · rw [hrun] at hrun'
    cases hrun'

/-- The {lit}`while(buf->size() >= 4)` loop of the constructor. -/
def readTlvs (oparams : TlvMap) (buf : Octets) : EStateM.Result Fault Octets TlvMap :=
  if hlength : 4 ≤ buf.length then
    match hrun : (readTlv oparams).run buf with
    | .ok oparams' rest =>
        have := length_lt_of_readTlv hlength hrun
        readTlvs oparams' rest
    | .error e rest => .error e rest
  else
    .ok oparams buf
termination_by buf.length

theorem readTlvs_of_short {oparams : TlvMap} {buf : Octets} (hlength : buf.length < 4) :
    readTlvs oparams buf = .ok oparams buf := by
  rw [readTlvs, dif_neg (by omega)]

theorem readTlvs_of_ok {oparams oparams' : TlvMap} {buf rest : Octets}
    (hlength : 4 ≤ buf.length) (hrun : (readTlv oparams).run buf = .ok oparams' rest) :
    readTlvs oparams buf = readTlvs oparams' rest := by
  rw [readTlvs, dif_pos hlength]
  split
  · rename_i hrun'
    rw [hrun] at hrun'
    cases hrun'
    rfl
  · rename_i hrun'
    rw [hrun] at hrun'
    cases hrun'

theorem readTlvs_of_error {oparams : TlvMap} {buf rest : Octets} {e : Fault}
    (hlength : 4 ≤ buf.length) (hrun : (readTlv oparams).run buf = .error e rest) :
    readTlvs oparams buf = .error e rest := by
  rw [readTlvs, dif_pos hlength]
  split
  · rename_i hrun'
    rw [hrun] at hrun'
    cases hrun'
  · rename_i hrun'
    rw [hrun] at hrun'
    cases hrun'
    rfl

/-- The loop reads every TLV in front of it. -/
theorem readTlvs_append (oparams : TlvMap) (tlvs : List (OparamTag × Octets)) (rest : Octets)
    (hshort : ShortTlvs tlvs) :
    readTlvs oparams (encodeTlvs tlvs ++ rest) =
      readTlvs (EmplaceMap.emplaceAll oparams tlvs) rest := by
  induction tlvs generalizing oparams with
  | nil => rfl
  | cons tlv tlvs ih =>
      rcases tlv with ⟨tag, val⟩
      have hval : val.length ≤ 65535 := hshort (tag, val) (by simp)
      have hrest : ShortTlvs tlvs := fun tlv hmem => hshort tlv (by simp [hmem])
      have hcut : encodeTlvs ((tag, val) :: tlvs) ++ rest =
          encodeTlv (tag, val) ++ (encodeTlvs tlvs ++ rest) := by
        simp [encodeTlvs]
      have hlength : 4 ≤ (encodeTlv (tag, val) ++ (encodeTlvs tlvs ++ rest)).length := by
        simp
        omega
      rw [hcut, readTlvs_of_ok hlength (reads_readTlv oparams tag hval _), ih _ hrest]
      rfl

/-- The loop reads every TLV of a sequence and leaves a short rest unread. -/
theorem readTlvs_encodeTlvs (oparams : TlvMap) (tlvs : List (OparamTag × Octets))
    {tail : Octets} (hshort : ShortTlvs tlvs) (htail : tail.length < 4) :
    readTlvs oparams (encodeTlvs tlvs ++ tail) =
      .ok (EmplaceMap.emplaceAll oparams tlvs) tail := by
  rw [readTlvs_append oparams tlvs tail hshort, readTlvs_of_short htail]

/-- The loop fails behind the TLVs that it has read. -/
theorem readTlvs_of_overruns (oparams : TlvMap) (tlvs : List (OparamTag × Octets))
    {rest : Octets} (hshort : ShortTlvs tlvs) (hoverruns : Overruns rest) :
    readTlvs oparams (encodeTlvs tlvs ++ rest) =
      .error (.lengthError "oparam val length is bigger than available buf") rest := by
  rw [readTlvs_append oparams tlvs rest hshort]
  exact readTlvs_of_error hoverruns.length_le (run_readTlv_of_overruns _ hoverruns)

/-- Every string consists of TLVs and a rest that is too short for one or whose length field
is too large. -/
theorem exists_tlvs (buf : Octets) :
    ∃ tlvs rest, ShortTlvs tlvs ∧ buf = encodeTlvs tlvs ++ rest ∧
      (rest.length < 4 ∨ Overruns rest) := by
  induction hn : buf.length using Nat.strongRecOn generalizing buf with
  | ind n ih =>
      by_cases hlength : 4 ≤ buf.length
      · rcases exists_tlv hlength with ⟨tag, val, rest, hval, rfl⟩ | hoverruns
        · have hlt : rest.length < n := by
            rw [← hn, List.length_append, length_encodeTlv]
            omega
          rcases ih rest.length hlt rest rfl with ⟨tlvs, tail, hshort, rfl, hend⟩
          refine ⟨(tag, val) :: tlvs, tail, ?_, by simp [encodeTlvs], hend⟩
          intro tlv hmem
          rcases List.mem_cons.mp hmem with rfl | hmem
          · exact hval
          · exact hshort tlv hmem
        · exact ⟨[], buf, by simp [ShortTlvs], rfl, Or.inr hoverruns⟩
      · exact ⟨[], buf, by simp [ShortTlvs], rfl, Or.inl (by omega)⟩

/-- The loop returns only after a sequence of complete TLVs, and otherwise fails
with a length error. -/
theorem readTlvs_cases (oparams : TlvMap) (buf : Octets) :
    (∃ tlvs tail, ShortTlvs tlvs ∧ tail.length < 4 ∧ buf = encodeTlvs tlvs ++ tail) ∨
      ∃ what rest, readTlvs oparams buf = .error (.lengthError what) rest := by
  rcases exists_tlvs buf with ⟨tlvs, rest, hshort, rfl, htail | hoverruns⟩
  · exact Or.inl ⟨tlvs, rest, hshort, htail, rfl⟩
  · exact Or.inr ⟨_, rest, readTlvs_of_overruns oparams tlvs hshort hoverruns⟩

/-! ## The stored map -/

/-- No stored value exceeds the 16-bit length field. -/
def ShortValues (oparams : TlvMap) : Prop :=
  ∀ (tag : OparamTag) (val : Octets), oparams[tag]? = some val → val.length ≤ 65535

/-- {lit}`class oparam`, with the bound on its values. -/
structure Oparam where
  oparams : TlvMap
  short : ShortValues oparams

theorem Oparam.ext {a b : Oparam} (heq : a.oparams = b.oparams) : a = b := by
  cases a
  cases b
  simpa using heq

instance : DecidableEq Oparam := fun a b =>
  decidable_of_iff (a.oparams = b.oparams) ⟨Oparam.ext, fun heq => heq ▸ rfl⟩

theorem shortValues_empty : ShortValues ∅ := by
  intro tag val hget
  simp at hget

theorem shortTlvs_toList (o : Oparam) : ShortTlvs o.oparams.toList := by
  rintro ⟨tag, val⟩ hmem
  exact o.short tag val (ExtTreeMap.mem_toList_iff_getElem?_eq_some.mp hmem)

/-- Short TLVs fill the map with short values. -/
theorem shortValues_emplaceAll {oparams : TlvMap} {tlvs : List (OparamTag × Octets)}
    (hvalues : ShortValues oparams) (hshort : ShortTlvs tlvs) :
    ShortValues (EmplaceMap.emplaceAll oparams tlvs) := by
  intro tag val hget
  rw [EmplaceMap.getElem?_emplaceAll, Option.or_eq_some_iff] at hget
  rcases hget with hold | ⟨_, hfirst⟩
  · exact hvalues tag val hold
  · exact hshort _ (EmplaceMap.mem_of_firstValue hfirst)

theorem shortValues_of_readTlvs {oparams oparams' : TlvMap} {buf rest : Octets}
    (hvalues : ShortValues oparams) (hrun : readTlvs oparams buf = .ok oparams' rest) :
    ShortValues oparams' := by
  rcases readTlvs_cases oparams buf with ⟨tlvs, tail, hshort, htail, rfl⟩ | ⟨what, rest', herror⟩
  · rw [readTlvs_encodeTlvs oparams tlvs hshort htail] at hrun
    cases hrun
    exact shortValues_emplaceAll hvalues hshort
  · rw [herror] at hrun
    cases hrun

namespace Oparam

/-- {lit}`oparam()`. -/
def empty : Oparam := ⟨∅, shortValues_empty⟩

/-- The store that TLVs in wire order denote: the first value of a tag wins. -/
def ofTlvs (tlvs : List (OparamTag × Octets)) (hshort : ShortTlvs tlvs) : Oparam :=
  ⟨EmplaceMap.emplaceAll ∅ tlvs, shortValues_emplaceAll shortValues_empty hshort⟩

/-- {lit}`oparam(std::span<const uint8_t>* buf)`. -/
def ofView : Reader Oparam := fun buf =>
  match hrun : readTlvs ∅ buf with
  | .ok oparams rest =>
      .ok ⟨oparams, shortValues_of_readTlvs shortValues_empty hrun⟩ rest
  | .error e rest => .error e rest

/-- {lit}`oparam::serialize`. -/
def serialize (o : Oparam) : Writer Unit :=
  forM o.oparams.toList fun oparam => do
    serializeU16 oparam.1.toU16
    serializeU16 (UInt16.ofNat oparam.2.length)
    append oparam.2

/-- The constructor on complete TLVs followed by a short rest. -/
theorem run_ofView {tlvs : List (OparamTag × Octets)} {tail : Octets}
    (hshort : ShortTlvs tlvs) (htail : tail.length < 4) :
    ofView.run (encodeTlvs tlvs ++ tail) = .ok (ofTlvs tlvs hshort) tail := by
  have hloop := readTlvs_encodeTlvs ∅ tlvs hshort htail
  unfold ofView EStateM.run
  dsimp only
  split
  · rename_i hrun
    rw [hloop] at hrun
    cases hrun
    rfl
  · rename_i hrun
    rw [hloop] at hrun
    cases hrun

/-- What the loop throws the constructor throws. -/
theorem run_ofView_of_error {buf rest : Octets} {e : Fault}
    (herror : readTlvs ∅ buf = .error e rest) : ofView.run buf = .error e rest := by
  unfold ofView EStateM.run
  dsimp only
  split
  · rename_i hrun
    rw [herror] at hrun
    cases hrun
  · rename_i hrun
    rw [herror] at hrun
    cases hrun
    rfl

/-- On any other view the constructor throws. -/
theorem run_ofView_cases (buf : Octets) :
    (∃ tlvs tail, ∃ _ : ShortTlvs tlvs, tail.length < 4 ∧ buf = encodeTlvs tlvs ++ tail) ∨
      ∃ what rest, ofView.run buf = .error (.lengthError what) rest := by
  rcases readTlvs_cases ∅ buf with ⟨tlvs, tail, hshort, htail, rfl⟩ | ⟨what, rest, herror⟩
  · exact Or.inl ⟨tlvs, tail, hshort, htail, rfl⟩
  · exact Or.inr ⟨what, rest, run_ofView_of_error herror⟩

private theorem run_forM_serialize {tlvs : List (OparamTag × Octets)}
    (hshort : ShortTlvs tlvs) (vec : Octets) :
    (forM tlvs (fun oparam => do
        serializeU16 oparam.1.toU16
        serializeU16 (UInt16.ofNat oparam.2.length)
        append oparam.2) : Writer Unit).run vec =
      .ok () (vec ++ encodeTlvs tlvs) := by
  induction tlvs generalizing vec with
  | nil => simp [encodeTlvs]
  | cons tlv tlvs ih =>
      have hval : tlv.2.length ≤ 65535 := hshort tlv (by simp)
      have hlength : (UInt16.ofNat tlv.2.length).toNat = tlv.2.length := by
        rw [UInt16.toNat_ofNat']
        omega
      simp only [List.forM_cons, EStateM.run_bind, run_serializeU16, run_append, hlength]
      rw [ih fun tlv hmem => hshort tlv (by simp [hmem])]
      simp [encodeTlvs, encodeTlv]

/-- Serialization appends the stored TLVs in the order of the map. -/
theorem run_serialize (o : Oparam) (vec : Octets) :
    o.serialize.run vec = .ok () (vec ++ encodeTlvs o.oparams.toList) :=
  run_forM_serialize (shortTlvs_toList o) vec

/-- The store holds the first value of each tag and nothing else. -/
theorem getElem?_ofTlvs {tlvs : List (OparamTag × Octets)} (hshort : ShortTlvs tlvs)
    (tag : OparamTag) :
    (ofTlvs tlvs hshort).oparams[tag]? = EmplaceMap.firstValue tlvs tag := by
  simp [ofTlvs, EmplaceMap.getElem?_emplaceAll]

end Oparam

end Smpp
