import NearKms.Attestation.Collateral
import NearKms.Lib.Checks

/-!
# What the collateral parser accepts

The nine required members, in the order in which the parser asks for them, are a list
of checks: all must pass, and the first that fails is reported. Nothing else in the
document is looked at but the certificate chain.
-/

namespace NearKms

/-- A string member is read as its text. -/
theorem Json.bind_asStr_eq_some {o : Option Json} {s : String} :
    o.bind Json.asStr = some s ↔ o = some (.string s) := by
  cases o with
  | none => simp
  | some v => cases v <;> simp [Json.asStr]

namespace Collateral

/-! ## Members -/

/-- A required member of the document, and where its value goes. -/
inductive Member where
  | text (key : String) (get : Collateral → String)
  | hex (key : String) (get : Collateral → Bytes)

/-- In the order in which they are asked for. -/
def requiredMembers : List Member :=
  [.text "tcb_info_issuer_chain" tcbInfoIssuerChain,
    .text "tcb_info" tcbInfo,
    .hex "tcb_info_signature" tcbInfoSignature,
    .text "qe_identity_issuer_chain" qeIdentityIssuerChain,
    .text "qe_identity" qeIdentity,
    .hex "qe_identity_signature" qeIdentitySignature,
    .text "pck_crl_issuer_chain" pckCrlIssuerChain,
    .hex "root_ca_crl" rootCaCrl,
    .hex "pck_crl" pckCrl]

namespace Member

def key : Member → String
  | .text key _ => key
  | .hex key _ => key

/-- The document has the member in the right form. -/
def Ok (v : Json) : Member → Prop
  | .text key _ => ∃ s, v.get key = some (.string s)
  | .hex key _ => ∃ s, v.get key = some (.string s) ∧ Hex.WellFormed s

/-- The value was taken over: a text as it is, and bytes as the lower case of their
text says. -/
def Copied (v : Json) (c : Collateral) : Member → Prop
  | .text key get => v.get key = some (.string (get c))
  | .hex key get => ∃ s, v.get key = some (.string s) ∧ Hex.encode (get c) = s.toLower

/-- The member is missing or no string. -/
def Missing (v : Json) (m : Member) : Prop := ∀ s, v.get m.key ≠ some (.string s)

/-- The error that the member gives rise to. -/
def Fails (v : Json) (e : CollateralError) (m : Member) : Prop :=
  (m.Missing v ∧ e = .missingField m.key) ∨
    match m with
    | .text _ _ => False
    | .hex key _ => ∃ s source, v.get key = some (.string s) ∧ ¬ Hex.WellFormed s ∧
        Hex.decode s = .error source ∧ e = .hexDecode key source

/-- Reading the member, for its errors only. -/
def check (v : Json) : Member → Except CollateralError Unit
  | .text key _ => (fun _ => ()) <$> getStr v key
  | .hex key _ => (fun _ => ()) <$> getHex v key

end Member

/-! ## One member -/

theorem getStr_eq_ok {v : Json} {key s : String} :
    getStr v key = .ok s ↔ v.get key = some (.string s) := by
  rw [← Json.bind_asStr_eq_some, getStr]
  cases (v.get key).bind Json.asStr <;> simp

theorem getStr_eq_error {v : Json} {key : String} {e : CollateralError} :
    getStr v key = .error e ↔
      (∀ s, v.get key ≠ some (.string s)) ∧ e = .missingField key := by
  simp only [ne_eq, ← Json.bind_asStr_eq_some, getStr]
  cases (v.get key).bind Json.asStr <;> simp [eq_comm]

theorem getHex_eq_ok {v : Json} {key : String} {bytes : Bytes} :
    getHex v key = .ok bytes ↔
      ∃ s, v.get key = some (.string s) ∧ Hex.decode s = .ok bytes := by
  unfold getHex
  simp only [bind_eq_ok, getStr_eq_ok]
  constructor
  · intro h
    rcases h with ⟨s, hs, hbytes⟩
    refine ⟨s, hs, ?_⟩
    cases hdec : Hex.decode s with
    | error source => simp [hdec] at hbytes
    | ok decoded => simpa [hdec] using hbytes
  · intro h
    rcases h with ⟨s, hs, hdec⟩
    exact ⟨s, hs, by rw [hdec]⟩

theorem getHex_eq_error {v : Json} {key : String} {e : CollateralError} :
    getHex v key = .error e ↔
      ((∀ s, v.get key ≠ some (.string s)) ∧ e = .missingField key) ∨
        ∃ s source, v.get key = some (.string s) ∧ Hex.decode s = .error source ∧
          e = .hexDecode key source := by
  unfold getHex
  simp only [Checks.bind_eq_error, getStr_eq_error, getStr_eq_ok]
  refine or_congr Iff.rfl ?_
  constructor
  · intro h
    rcases h with ⟨s, hs, he⟩
    cases hdec : Hex.decode s with
    | ok bytes => simp [hdec] at he
    | error source =>
        refine ⟨s, source, hs, hdec, ?_⟩
        simpa [hdec, eq_comm] using he
  · intro h
    rcases h with ⟨s, source, hs, hdec, rfl⟩
    exact ⟨s, hs, by rw [hdec]⟩

/-- What does not decode is not well formed. -/
theorem exists_decode_error_iff {s : String} :
    (∃ source, Hex.decode s = .error source) ↔ ¬ Hex.WellFormed s := by
  rw [← Hex.decode_isOk_iff]
  cases Hex.decode s <;> simp

/-- The check of a member passes if the member has the right form. -/
theorem check_eq_ok {v : Json} {m : Member} : m.check v = .ok () ↔ m.Ok v := by
  cases m with
  | text key get =>
      rw [Member.check, Checks.map_unit_eq_ok]
      simp only [getStr_eq_ok, Member.Ok]
  | hex key get =>
      rw [Member.check, Checks.map_unit_eq_ok]
      simp only [getHex_eq_ok, Member.Ok, ← Hex.decode_isOk_iff]
      constructor
      · intro h
        rcases h with ⟨bytes, s, hs, hdec⟩
        exact ⟨s, hs, bytes, hdec⟩
      · intro h
        rcases h with ⟨s, hs, bytes, hdec⟩
        exact ⟨bytes, s, hs, hdec⟩

theorem check_eq_error {v : Json} {m : Member} {e : CollateralError} :
    m.check v = .error e ↔ m.Fails v e := by
  cases m with
  | text key get =>
      rw [Member.check, Checks.map_eq_error, getStr_eq_error]
      simp only [Member.Fails, Member.Missing, Member.key, or_false]
  | hex key get =>
      rw [Member.check, Checks.map_eq_error, getHex_eq_error]
      refine or_congr Iff.rfl ?_
      constructor
      · intro h
        rcases h with ⟨s, source, hs, hdec, he⟩
        exact ⟨s, source, hs, exists_decode_error_iff.1 ⟨source, hdec⟩, hdec, he⟩
      · intro h
        rcases h with ⟨s, source, hs, -, hdec, he⟩
        exact ⟨s, source, hs, hdec, he⟩

/-! ## The document -/

/-- The parser makes the checks of the required members in their order. -/
theorem tryFromJson_map (v : Json) :
    (fun _ => ()) <$> tryFromJson v = forM requiredMembers (Member.check v) := by
  simp only [tryFromJson, requiredMembers, List.forM_cons, List.forM_nil, Member.check,
    map_bind, map_pure, bind_map_left]

/-- It succeeds if every required member has the right form. -/
theorem exists_tryFromJson_iff {v : Json} :
    (∃ c, tryFromJson v = .ok c) ↔ ∀ m ∈ requiredMembers, m.Ok v := by
  rw [← Checks.map_unit_eq_ok, tryFromJson_map, Checks.forM_eq_ok]
  simp only [check_eq_ok]

/-- Its error is that of the first member that has not. -/
theorem tryFromJson_eq_error {v : Json} {e : CollateralError} :
    tryFromJson v = .error e ↔
      ∃ pre m post, requiredMembers = pre ++ m :: post ∧ (∀ p ∈ pre, p.Ok v) ∧ m.Fails v e := by
  rw [← @Checks.map_eq_error _ _ _ _ (fun _ => ()), tryFromJson_map, Checks.forM_eq_error]
  simp only [check_eq_ok, check_eq_error]

theorem not_fails_invalidJson {v : Json} {m : Member} : ¬ m.Fails v .invalidJson := by
  intro h
  cases m with
  | text key get =>
      rcases h with ⟨-, he⟩ | hfalse
      · cases he
      · exact hfalse
  | hex key get =>
      rcases h with ⟨_, he⟩ | ⟨_, _, _, _, _, he⟩
      · cases he
      · cases he

theorem filter_ne_empty_iff {v : Json} {key x : String} :
    ((v.get key).bind Json.asStr).filter (· ≠ "") = some x ↔
      v.get key = some (.string x) ∧ x ≠ "" := by
  rw [Option.filter_eq_some_iff, Json.bind_asStr_eq_some]
  simp

/-- What a successful parse has copied. -/
theorem copied_of_tryFromJson {v : Json} {c : Collateral} (h : tryFromJson v = .ok c) :
    (∀ m ∈ requiredMembers, m.Copied v c) ∧
      ∀ x, c.pckCertificateChain = some x ↔
        v.get "pck_certificate_chain" = some (.string x) ∧ x ≠ "" := by
  unfold tryFromJson at h
  simp only [bind_eq_ok, getStr_eq_ok, getHex_eq_ok, pure, Except.pure, Except.ok.injEq] at h
  rcases h with ⟨_, h₁, _, h₂, _, h₃, _, h₄, _, h₅, _, h₆, _, h₇, _, h₈, _, h₉, rfl⟩
  constructor
  · have hhex : ∀ {key : String} {bytes : Bytes},
        (∃ s, v.get key = some (.string s) ∧ Hex.decode s = .ok bytes) →
          ∃ s, v.get key = some (.string s) ∧ Hex.encode bytes = s.toLower := by
      intro key bytes hdec
      rcases hdec with ⟨s, hs, hdec⟩
      exact ⟨s, hs, (Hex.decode_eq_ok_iff.1 hdec).2⟩
    simp only [requiredMembers, List.forall_mem_cons, List.not_mem_nil, false_implies,
      implies_true, and_true]
    exact ⟨h₁, h₂, hhex h₃, h₄, h₅, hhex h₆, h₇, hhex h₈, hhex h₉⟩
  · intro x
    exact filter_ne_empty_iff

/-! ## Unknown members and the order of members -/

/-- The keys that are looked up. -/
def knownKeys : List String := "pck_certificate_chain" :: requiredMembers.map Member.key

/-- Documents that agree on these keys are parsed alike. -/
theorem tryFromJson_congr {v v' : Json} (h : ∀ key ∈ knownKeys, v.get key = v'.get key) :
    tryFromJson v = tryFromJson v' := by
  simp only [knownKeys, requiredMembers, List.map_cons, List.map_nil, Member.key,
    List.forall_mem_cons, List.not_mem_nil, false_implies, implies_true, and_true] at h
  rcases h with ⟨h₀, h₁, h₂, h₃, h₄, h₅, h₆, h₇, h₈, h₉⟩
  simp only [tryFromJson, getStr, getHex, h₀, h₁, h₂, h₃, h₄, h₅, h₆, h₇, h₈, h₉]

/-- Where no key is repeated, a lookup finds the one member with the key. -/
theorem lookup_eq_some_iff_mem {α : Type} {members : List (String × α)}
    (hnodup : (members.map Prod.fst).Nodup) {key : String} {x : α} :
    members.lookup key = some x ↔ (key, x) ∈ members := by
  induction members with
  | nil => simp
  | cons m members ih =>
      rcases m with ⟨key', y⟩
      rw [List.map_cons, List.nodup_cons] at hnodup
      by_cases hkey : key = key'
      · subst hkey
        -- the key does not come again
        have hnot : (key, x) ∉ members := by
          intro hmem
          exact hnodup.1 (List.mem_map.2 ⟨(key, x), hmem, rfl⟩)
        rw [List.lookup_cons_self, List.mem_cons]
        simp only [Option.some.injEq, Prod.mk.injEq, true_and, hnot, or_false, eq_comm]
      · have hbeq : (key == key') = false := beq_false_of_ne hkey
        rw [List.lookup_cons, hbeq, List.mem_cons, ← ih hnodup.2]
        simp only [Prod.mk.injEq, hkey, false_and, false_or]

/-- Two objects with the same known members, in any order and among any others. -/
structure SameKnown (members members' : List (String × Json)) : Prop where
  nodup : (members.map Prod.fst).Nodup
  nodup' : (members'.map Prod.fst).Nodup
  perm : (members.filter fun m => m.1 ∈ knownKeys).Perm
    (members'.filter fun m => m.1 ∈ knownKeys)

theorem SameKnown.get_eq {members members' : List (String × Json)}
    (h : SameKnown members members') {key : String} (hkey : key ∈ knownKeys) :
    (Json.object members).get key = (Json.object members').get key := by
  apply Option.ext
  intro x
  have hmem : ∀ ms : List (String × Json),
      (key, x) ∈ ms.filter (fun m => m.1 ∈ knownKeys) ↔ (key, x) ∈ ms := by
    intro ms
    simp [List.mem_filter, hkey]
  rw [Json.get, Json.get, lookup_eq_some_iff_mem h.nodup, lookup_eq_some_iff_mem h.nodup',
    ← hmem members, ← hmem members', h.perm.mem_iff]

/-! ## The format -/

/-- Only an object has members. -/
theorem eq_object_of_get {v x : Json} {key : String} (h : v.get key = some x) :
    ∃ members, v = .object members := by
  cases v with
  | object members => exact ⟨members, rfl⟩
  | _ => cases h

theorem fromStr_of_value {deps : Externals} {s : String} {v : Json}
    (h : deps.valueFromStr s = some v) : fromStr deps s = tryFromJson v := by
  rw [fromStr, h]

/-- A string is accepted exactly if it is JSON for an object whose required members are
strings, those for bytes of hexadecimal digits, an even number of them. Then the texts
are copied, the bytes are written as the member in lower case, and the certificate
chain is the member if this is a string and not empty. Otherwise the error says that
it is no JSON, or names the first member at fault and what is wrong with it. Other
members, and the order of the members, make no difference. -/
theorem collateral_format (deps : Externals) :
    (∀ s, (∃ c, fromStr deps s = .ok c) ↔
      ∃ members, deps.valueFromStr s = some (.object members) ∧
        ∀ m ∈ requiredMembers, m.Ok (.object members)) ∧
      (∀ s c, fromStr deps s = .ok c → ∃ v, deps.valueFromStr s = some v ∧
        (∀ m ∈ requiredMembers, m.Copied v c) ∧
        ∀ x, c.pckCertificateChain = some x ↔
          v.get "pck_certificate_chain" = some (.string x) ∧ x ≠ "") ∧
      (∀ s, fromStr deps s = .error .invalidJson ↔ deps.valueFromStr s = none) ∧
      (∀ s v e, deps.valueFromStr s = some v →
        (fromStr deps s = .error e ↔
          ∃ pre m post, requiredMembers = pre ++ m :: post ∧ (∀ p ∈ pre, p.Ok v) ∧
            m.Fails v e)) ∧
      ∀ s s' members members', deps.valueFromStr s = some (.object members) →
        deps.valueFromStr s' = some (.object members') → SameKnown members members' →
        fromStr deps s = fromStr deps s' := by
  refine ⟨?_, ?_, ?_, ?_, ?_⟩
  · intro s
    cases hv : deps.valueFromStr s with
    | none => simp [fromStr, hv]
    | some v =>
        rw [fromStr_of_value hv, exists_tryFromJson_iff]
        constructor
        · intro hall
          -- the first member alone tells that it is an object
          have hfirst := hall _ List.mem_cons_self
          rcases hfirst with ⟨x, hx⟩
          rcases eq_object_of_get hx with ⟨members, rfl⟩
          exact ⟨members, rfl, hall⟩
        · intro h
          rcases h with ⟨members, hobject, hall⟩
          rw [Option.some.inj hobject]
          exact hall
  · intro s c hok
    cases hv : deps.valueFromStr s with
    | none => simp [fromStr, hv] at hok
    | some v =>
        rw [fromStr_of_value hv] at hok
        exact ⟨v, rfl, copied_of_tryFromJson hok⟩
  · intro s
    cases hv : deps.valueFromStr s with
    | none => simp [fromStr, hv]
    | some v =>
        rw [fromStr_of_value hv, tryFromJson_eq_error]
        refine iff_of_false ?_ (by simp)
        intro h
        rcases h with ⟨-, m, -, -, -, hfails⟩
        exact not_fails_invalidJson hfails
  · intro s v e hv
    rw [fromStr_of_value hv]
    exact tryFromJson_eq_error
  · intro s s' members members' hv hv' hsame
    rw [fromStr_of_value hv, fromStr_of_value hv']
    refine tryFromJson_congr ?_
    intro key hkey
    exact hsame.get_eq hkey

end Collateral

end NearKms
