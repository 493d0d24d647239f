import Smpp.Pdu.Codec

/-!
# Bodies that are cut short

What a decoder makes of the beginning of a body.  The mandatory fields of a body delimit
themselves, so that a cut inside of them does not go unnoticed; behind them a cut may take
optional parameters away.

Main results:

- Theorem {lit}`encodeTlvs_append`: a TLV stream begins with no TLVs but its own.
- Theorem {lit}`FieldList.Splits.shortens`: the beginning of a body has the mandatory fields of
  the body or none.
- Theorem {lit}`PduType.deserialize_truncated`: what is accepted of a body, and as what.
-/

namespace Smpp

/-! ## TLV streams -/

/-- One TLV delimits itself. -/
theorem encodeTlv_unique {tlv tlv' : OparamTag × Octets} {r r' : Octets}
    (hshort : tlv.2.length ≤ 65535) (hshort' : tlv'.2.length ≤ 65535)
    (heq : encodeTlv tlv ++ r = encodeTlv tlv' ++ r') : tlv = tlv' ∧ r = r' := by
  have hreads := reads_readTlv ∅ tlv.1 hshort
  have hreads' := reads_readTlv ∅ tlv'.1 hshort'
  rcases hreads.unique hreads' heq with ⟨_, hstore, hrest⟩
  have htag : (∅ : TlvMap).insertIfNew tlv.1 tlv.2 = (∅ : TlvMap).insertIfNew tlv'.1 tlv'.2 :=
    hstore
  have hget := congrArg (·[tlv.1]?) htag
  simp only [EmplaceMap.getElem?_emplace] at hget
  by_cases hsame : tlv'.1 = tlv.1
  · simp [hsame] at hget
    exact ⟨Prod.ext hsame.symm hget, hrest⟩
  · simp [hsame] at hget

/-- A TLV stream begins with no TLVs but its own. -/
theorem encodeTlvs_append {tlvs tlvs' : List (OparamTag × Octets)} {tail q : Octets}
    (hshort : ShortTlvs tlvs) (hshort' : ShortTlvs tlvs') (htail : tail.length < 4)
    (heq : encodeTlvs tlvs' ++ q = encodeTlvs tlvs ++ tail) : tlvs' <+: tlvs := by
  induction tlvs' generalizing tlvs with
  | nil => exact List.nil_prefix
  | cons tlv' tlvs' ih =>
      have hfirst : encodeTlvs (tlv' :: tlvs') ++ q =
          encodeTlv tlv' ++ (encodeTlvs tlvs' ++ q) := by
        simp [encodeTlvs]
      rw [hfirst] at heq
      cases tlvs with
      | nil =>
          have hlength := congrArg List.length heq
          simp [encodeTlvs] at hlength
          omega
      | cons tlv tlvs =>
          have hnext : encodeTlvs (tlv :: tlvs) ++ tail =
              encodeTlv tlv ++ (encodeTlvs tlvs ++ tail) := by
            simp [encodeTlvs]
          rw [hnext] at heq
          rcases encodeTlv_unique (hshort' tlv' (by simp)) (hshort tlv (by simp)) heq with
            ⟨rfl, hrest⟩
          have hlater := ih (fun t hmem => hshort t (by simp [hmem]))
            (fun t hmem => hshort' t (by simp [hmem])) hrest
          exact (List.prefix_cons_inj tlv').mpr hlater

/-- The beginning of a list has no first values but those of the list. -/
theorem firstValue_of_append {tlvs tlvs' : List (OparamTag × Octets)} (hbegins : tlvs' <+: tlvs)
    {tag : OparamTag} {val : Octets} (hfirst : EmplaceMap.firstValue tlvs' tag = some val) :
    EmplaceMap.firstValue tlvs tag = some val := by
  rcases hbegins with ⟨more, rfl⟩
  simp only [EmplaceMap.firstValue, List.find?_append, Option.map_eq_some_iff] at hfirst ⊢
  rcases hfirst with ⟨p, hfind, hval⟩
  exact ⟨p, by rw [hfind]; rfl, hval⟩

/-- The store holds nothing that the other one does not hold. -/
def Oparam.Shortens (o' o : Oparam) : Prop :=
  ∀ (tag : OparamTag) (val : Octets), o'.oparams[tag]? = some val → o.oparams[tag]? = some val

theorem TlvStream.shortens {o o' : Oparam} {r r' q : Octets} (hstream : TlvStream o r)
    (hstream' : TlvStream o' r') (heq : r' ++ q = r) : o'.Shortens o := by
  rcases hstream with ⟨tlvs, tail, hshort, htail, rfl, hvalues⟩
  rcases hstream' with ⟨tlvs', tail', hshort', htail', rfl, hvalues'⟩
  rw [List.append_assoc] at heq
  intro tag val hget
  rw [hvalues'] at hget
  rw [hvalues]
  exact firstValue_of_append (encodeTlvs_append hshort hshort' htail heq) hget

/-! ## Bodies -/

namespace FieldList

/-- The members are the same, but optional parameters may be missing. -/
def Shortens {M : Type} (fields : FieldList M) (vals' vals : M) : Prop :=
  match fields, vals', vals with
  | nil, _, _ => True
  | smart _, val', val => val'.Shortens val
  | mem _ _ rest, (val', vals'), (val, vals) => val' = val ∧ rest.Shortens vals' vals

/-- The beginning of a body has the mandatory fields of the body, or it has no cut. -/
theorem Splits.shortens {M : Type} {fields : FieldList M} {vals vals' : M} {es es' : List Octets}
    {r r' q : Octets} (hsplits : fields.Splits vals es r)
    (hsplits' : fields.Splits vals' es' r') (heq : es'.flatten ++ (r' ++ q) = es.flatten ++ r) :
    es' = es ∧ fields.Shortens vals' vals := by
  induction fields generalizing es es' with
  | nil => exact ⟨hsplits'.trans hsplits.symm, trivial⟩
  | smart name =>
      rcases hsplits with ⟨rfl, hstream⟩
      rcases hsplits' with ⟨rfl, hstream'⟩
      exact ⟨rfl, hstream.shortens hstream' heq⟩
  | mem codec name fields ih =>
      rcases vals with ⟨val, vals⟩
      rcases vals' with ⟨val', vals'⟩
      rcases hsplits with ⟨e, es, rfl, hencodes, hrest⟩
      rcases hsplits' with ⟨e', es', rfl, hencodes', hrest'⟩
      rw [List.flatten_cons, List.flatten_cons, List.append_assoc, List.append_assoc] at heq
      obtain ⟨rfl, rfl, htail⟩ := (codec.reads_deserialize name hencodes').unique
        (codec.reads_deserialize name hencodes) heq
      rcases ih hrest hrest' htail with ⟨rfl, hshortens⟩
      exact ⟨rfl, rfl, hshortens⟩

/-- Without optional parameters nothing may be missing. -/
theorem Shortens.eq {M : Type} {fields : FieldList M} {vals vals' : M}
    (hshortens : fields.Shortens vals' vals) (hnone : ¬ fields.HasOparam) : vals' = vals := by
  induction fields with
  | nil => rfl
  | smart name => exact absurd trivial hnone
  | mem codec name fields ih =>
      rcases vals with ⟨val, vals⟩
      rcases vals' with ⟨val', vals'⟩
      rcases hshortens with ⟨rfl, hrest⟩
      rw [ih hrest hnone]

end FieldList

namespace PduType

/-- The PDU is the other one, but optional parameters may be missing. -/
def Shortens (t : PduType) (pdu' pdu : t.Struct) : Prop :=
  t.pduMeta.fields.Shortens (t.pduMeta.members pdu') (t.pduMeta.members pdu)

/-- Without optional parameters nothing may be missing. -/
theorem Shortens.eq {t : PduType} {pdu pdu' : t.Struct} (hshortens : t.Shortens pdu' pdu)
    (hnone : ¬ t.HasOparam) : pdu' = pdu :=
  t.pduMeta.members.injective (FieldList.Shortens.eq hshortens hnone)

/-- Of a body that is accepted, the decoder accepts a non-empty beginning exactly when it
holds all mandatory fields and what is left of the optional parameters still is a TLV stream,
and throws a length error otherwise.  What it accepts is the value of the whole body, except
that optional parameters may be missing. -/
theorem deserialize_truncated (t : PduType) (body : Octets) (hbody : body ≠ []) (pdu : t.Struct)
    (hok : t.deserialize body = .ok pdu) :
    ∃ es r, t.Splits pdu es r ∧ body = es.flatten ++ r ∧ ∀ p, p ≠ [] → p <+: body →
      ((∃ pdu', t.deserialize p = .ok pdu') ↔ ∃ r', p = es.flatten ++ r' ∧ t.Grammar es r') ∧
      (∀ pdu', t.deserialize p = .ok pdu' →
        t.Shortens pdu' pdu ∧ (¬ t.HasOparam → pdu' = pdu)) ∧
      ((∀ pdu', t.deserialize p ≠ .ok pdu') →
        ∃ what, t.deserialize p = .error (.lengthError what)) := by
  rcases deserialize_cases t hbody with ⟨pdu₀, es, r, hsplits, rfl, hok₀⟩ | ⟨_, what, herror⟩
  swap
  · rw [hok] at herror
    cases herror
  rw [hok] at hok₀
  cases hok₀
  refine ⟨es, r, hsplits, rfl, fun p hp hbegins => ?_⟩
  rcases hbegins with ⟨q, hq⟩
  rcases deserialize_cases t hp with ⟨pdu', es', r', hsplits', rfl, hok'⟩ | ⟨hno, what, herror⟩
  · rw [List.append_assoc] at hq
    rcases FieldList.Splits.shortens hsplits hsplits' hq with ⟨rfl, hshortens⟩
    have hgrammar : t.Grammar es' r' := (t.pduMeta.fields.grammar_iff es' r').mpr ⟨_, hsplits'⟩
    refine ⟨iff_of_true ⟨pdu', hok'⟩ ⟨r', rfl, hgrammar⟩, fun pdu'' hok'' => ?_, fun hnone => ?_⟩
    · rw [hok'] at hok''
      cases hok''
      exact ⟨hshortens, Shortens.eq hshortens⟩
    · exact absurd hok' (hnone pdu')
  · have hthrows : ∀ pdu', t.deserialize p ≠ .ok pdu' := by
      intro pdu' hok'
      rw [herror] at hok'
      cases hok'
    refine ⟨iff_of_false (fun ⟨pdu', hok'⟩ => hthrows pdu' hok') ?_, fun pdu' hok' => ?_,
      fun _ => ⟨what, herror⟩⟩
    · rintro ⟨r', rfl, hgrammar⟩
      exact hno ⟨es, r', hgrammar, rfl⟩
    · exact absurd hok' (hthrows pdu')

/-- The beginnings of an {lit}`outbind` with a system identifier and a password. -/
theorem deserialize_truncated_outbind :
    ∃ es r, Splits .outbind { systemId := [0x61], password := [0x62] } es r ∧
      [0x61, 0, 0x62, 0] = es.flatten ++ r ∧ ∀ p, p ≠ [] → p <+: [0x61, 0, 0x62, 0] →
        ((∃ pdu', deserialize .outbind p = .ok pdu') ↔
          ∃ r', p = es.flatten ++ r' ∧ Grammar .outbind es r') ∧
        (∀ pdu', deserialize .outbind p = .ok pdu' →
          Shortens .outbind pdu' { systemId := [0x61], password := [0x62] } ∧
            (¬ HasOparam .outbind → pdu' = { systemId := [0x61], password := [0x62] })) ∧
        ((∀ pdu', deserialize .outbind p ≠ .ok pdu') →
          ∃ what, deserialize .outbind p = .error (.lengthError what)) :=
  deserialize_truncated .outbind [0x61, 0, 0x62, 0] (by decide) _ rfl

end PduType

end Smpp
