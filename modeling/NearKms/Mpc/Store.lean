import NearKms.Lib.Separator
import NearKms.Lib.Transition
import NearKms.Mpc.Contract

/-!
# What the mock MPC contract stores

Any account may call the contract. An answer is stored for a path and a domain exactly
if they were asked for, and no other path and domain share its key. Whether it is stored
does not show: the view gives the answer that a request gets.
-/

namespace NearKms.Mpc

/-! ## Keys -/

/-- The domain is a number without underscores, so the last underscore of a key
separates it from the path. -/
theorem requestKey_inj {r r' : CkdRequestArgs} :
    requestKey r = requestKey r' ↔
      r.derivationPath = r'.derivationPath ∧ r.domainId = r'.domainId := by
  constructor
  · intro h
    have hlist := congrArg (fun s => s.toList.reverse) h
    simp only [requestKey, String.toList_append, List.reverse_append, Nat.toString_eq_repr,
      Nat.toList_repr] at hlist
    have hfree : ∀ n : Nat, '_' ∉ (Nat.toDigits 10 n).reverse := by
      intro n
      rw [List.mem_reverse]
      exact Nat.underscore_not_in_toDigits
    rcases Separator.append_sep_inj_of_notMem (hfree _) (hfree _) hlist with ⟨hdigits, hpath⟩
    constructor
    · exact String.toList_injective (List.reverse_injective hpath)
    · have hnat : r.domainId.toNat = r'.domainId.toNat := by
        rw [← Nat.ofDigitChars_ten_toDigits (n := r.domainId.toNat),
          List.reverse_injective hdigits, Nat.ofDigitChars_ten_toDigits]
      exact UInt64.toNat_inj.1 hnat
  · rintro ⟨hpath, hdomain⟩
    rw [requestKey, requestKey, hpath, hdomain]

/-! ## Runs -/

inductive Call where
  | new
  | requestAppPrivateKey (request : CkdRequestArgs)

def exec (ctx : Context) (s : Option Contract) : Call → Except Panic Outcome
  | .new => Mpc.new ctx s
  | .requestAppPrivateKey request => Mpc.requestAppPrivateKey ctx s request

/-- A call in its context. -/
abbrev Label := Context × Call

def next (s : Option Contract) (l : Label) : Option Contract :=
  match exec l.1 s l.2 with
  | .ok out => some out.contract
  | .error _ => s

theorem new_eq_ok {ctx : Context} {s : Option Contract} {out : Outcome} :
    new ctx s = .ok out ↔
      ctx.predecessorAccountId = ctx.currentAccountId ∧ ctx.attachedDeposit = 0 ∧ s = none ∧
        out = { contract := { pendingResponses := fun _ => none }, response := none } := by
  unfold new
  simp only [bind_eq_ok, assertPrivate_eq_ok, assertNoDeposit_eq_ok, assertUninitialized_eq_ok,
    pure_eq_ok]
  constructor
  · rintro ⟨-, hprivate, -, hdeposit, -, hnone, rfl⟩
    exact ⟨hprivate, hdeposit, hnone, rfl⟩
  · rintro ⟨hprivate, hdeposit, hnone, rfl⟩
    exact ⟨(), hprivate, (), hdeposit, (), hnone, rfl⟩

theorem requestAppPrivateKey_eq_ok {ctx : Context} {s : Option Contract}
    {request : CkdRequestArgs} {out : Outcome} :
    requestAppPrivateKey ctx s request = .ok out ↔
      ctx.attachedDeposit = 1 ∧ ∃ c, s = some c ∧
        out = { contract := c.insert (requestKey request) mockResponse
                response := some mockResponse } := by
  unfold requestAppPrivateKey
  simp only [bind_eq_ok, readContract_eq_ok, assertOneYocto_eq_ok, pure_eq_ok]
  constructor
  · rintro ⟨c, hc, -, hdeposit, rfl⟩
    exact ⟨hdeposit, c, hc, rfl⟩
  · rintro ⟨hdeposit, c, hc, rfl⟩
    exact ⟨c, hc, (), hdeposit, rfl⟩

/-! ## What is stored -/

/-- The store has an answer under this key. -/
def Stores (key : String) (s : Option Contract) : Prop :=
  ∃ c, s = some c ∧ c.pendingResponses key ≠ none

/-- A request for the path and the domain that was not refused. -/
def Requests (path : String) (domain : UInt64) (s : Option Contract) (l : Label) : Prop :=
  s.isSome ∧ l.1.attachedDeposit = 1 ∧
    ∃ request, l.2 = .requestAppPrivateKey request ∧ request.derivationPath = path ∧
      request.domainId = domain

/-- All a step can do: initialize the contract, store one answer, or nothing. -/
theorem next_cases (s : Option Contract) (l : Label) :
    (s = none ∧ next s l = some { pendingResponses := fun _ => none }) ∨
      (∃ c request, s = some c ∧ l.1.attachedDeposit = 1 ∧ l.2 = .requestAppPrivateKey request ∧
        next s l = some (c.insert (requestKey request) mockResponse)) ∨
      ((∀ path domain, ¬ Requests path domain s l) ∧ next s l = s) := by
  rcases l with ⟨ctx, call⟩
  cases hexec : exec ctx s call with
  | error panic =>
      refine Or.inr (Or.inr ⟨?_, by rw [next, hexec]⟩)
      -- a request on an initialized contract with its deposit is not refused
      rintro path domain ⟨hsome, hdeposit, request, rfl, -, -⟩
      rcases Option.isSome_iff_exists.1 hsome with ⟨c, rfl⟩
      have hok : requestAppPrivateKey ctx (some c) request = .ok _ :=
        requestAppPrivateKey_eq_ok.2 ⟨hdeposit, c, rfl, rfl⟩
      rw [exec, hok] at hexec
      cases hexec
  | ok out =>
      have hnext : next s (ctx, call) = some out.contract := by rw [next, hexec]
      cases call with
      | new =>
          rcases new_eq_ok.1 hexec with ⟨-, -, hnone, rfl⟩
          exact Or.inl ⟨hnone, hnext⟩
      | requestAppPrivateKey request =>
          rcases requestAppPrivateKey_eq_ok.1 hexec with ⟨hdeposit, c, hc, rfl⟩
          exact Or.inr (Or.inl ⟨c, request, hc, hdeposit, rfl, hnext⟩)

theorem stores_next (path : String) (domain : UInt64) (key : String) (s : Option Contract)
    (l : Label) : Stores (requestKey ⟨path, key, domain⟩) (next s l) ↔
      Stores (requestKey ⟨path, key, domain⟩) s ∨ Requests path domain s l := by
  rcases next_cases s l with ⟨hnone, hnext⟩ | ⟨c, request, hc, hdeposit, hcall, hnext⟩ |
    ⟨hnot, hnext⟩
  · -- nothing is stored before or right after the initialization
    subst hnone
    simp [hnext, Stores, Requests]
  · subst hc
    have hrequests : Requests path domain (some c) l ↔
        requestKey ⟨path, key, domain⟩ = requestKey request := by
      rw [requestKey_inj]
      constructor
      · rintro ⟨-, -, request', hcall', hpath, hdomain⟩
        rw [hcall] at hcall'
        cases hcall'
        exact ⟨hpath.symm, hdomain.symm⟩
      · rintro ⟨hpath, hdomain⟩
        exact ⟨rfl, hdeposit, request, hcall, hpath.symm, hdomain.symm⟩
    rw [hnext, hrequests]
    by_cases hkey : requestKey ⟨path, key, domain⟩ = requestKey request
    · simp [Stores, Contract.insert, hkey]
    · simp [Stores, Contract.insert, hkey]
  · rw [hnext]
    simp [hnot]

/-- Every answer that was stored is the one that requests get. -/
def Consistent (s : Option Contract) : Prop :=
  ∀ c, s = some c → ∀ key,
    c.pendingResponses key = none ∨ c.pendingResponses key = some mockResponse

theorem consistent_next (s : Option Contract) (l : Label) (hs : Consistent s) :
    Consistent (next s l) := by
  intro c' hc' key
  rcases next_cases s l with ⟨-, hnext⟩ | ⟨c, request, hc, -, -, hnext⟩ | ⟨-, hnext⟩
  · rw [hnext] at hc'
    cases hc'
    exact Or.inl rfl
  · rw [hnext] at hc'
    cases hc'
    by_cases hkey : key = requestKey request
    · exact Or.inr (by simp [Contract.insert, hkey])
    · simpa [Contract.insert, hkey] using hs c hc key
  · rw [hnext] at hc'
    exact hs c' hc' key

theorem getMockCkdResponse_of_consistent {c : Contract} (h : Consistent (some c))
    (request : CkdRequestArgs) : c.getMockCkdResponse request = mockResponse := by
  unfold Contract.getMockCkdResponse
  rcases h c rfl (requestKey request) with hnone | hsome
  · rw [hnone]
  · rw [hsome]

/-- In every run of the contract an answer is stored for a path and a domain exactly if
some call asked for them with one yocto attached; and stored or not, the view gives the
answer that every request for them gets, in whatever state. -/
theorem stored_iff_requested (ls : List Label) (request : CkdRequestArgs) :
    (Stores (requestKey request) (Transition.run next none ls) ↔
        Transition.Occurs next (Requests request.derivationPath request.domainId) none ls) ∧
      ∀ c, Transition.run next none ls = some c → ∀ ctx s out,
        requestAppPrivateKey ctx s request = .ok out →
          out.response = some (c.getMockCkdResponse request) := by
  have hstores := stores_next request.derivationPath request.domainId request.appPublicKey
  constructor
  · refine Transition.iff_occurs ?_ ?_ ?_ ls
    · rintro ⟨c, hc, -⟩
      cases hc
    · intro s l hl
      exact (hstores s l).2 (Or.inr hl)
    · intro s l hl
      exact (hstores s l).trans (or_iff_left hl)
  · intro c hc ctx s out hout
    have hinit : Consistent none := by
      intro c hc
      cases hc
    have hconsistent : Consistent (Transition.run next none ls) :=
      Transition.run_invariant consistent_next none ls hinit
    rw [hc] at hconsistent
    rcases requestAppPrivateKey_eq_ok.1 hout with ⟨-, c', -, rfl⟩
    rw [getMockCkdResponse_of_consistent hconsistent]

end NearKms.Mpc
