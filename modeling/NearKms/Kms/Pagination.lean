import NearKms.Kms.RootKey
import NearKms.Lib.Paging

/-!
# Reading the registered apps page by page

Apps are only ever appended, so a client that reads page after page while others
register apps misses none of those it set out to read, and sees none twice.
-/

namespace NearKms.Kms

variable {deps : Externals}

/-! ## Registrations -/

/-- The app that the step registers, if it is a callback that succeeds. -/
def registered (deps : Externals) (s : State) (l : Label) : List AccountId :=
  match l.2, exec deps l.1 s l.2 with
  | .onAppContractDeployed appId, .ok _ => [appId]
  | _, _ => []

/-- All registrations of a run in order, repeated ones included. -/
def registrations (deps : Externals) (ls : List Label) : List AccountId :=
  Transition.trace (next deps) (registered deps) State.deployed ls

/-- The registered apps of a state; before the initialization, none. -/
def registeredApps (s : State) : IterableSet AccountId :=
  match s.contract with
  | some c => c.registeredApps
  | none => .new

theorem registered_of_not_succeeds {s : State} {l : Label} (h : ¬ Succeeds deps s l) :
    registered deps s l = [] := by
  rcases exec_of_not_succeeds h with ⟨e, hexec⟩
  unfold registered
  rw [hexec]
  cases l.2 <;> rfl

/-- What a successful call registers is inserted, and nothing else. -/
theorem registeredApps_effect {s : State} {l : Label} (h : Succeeds deps s l) (c : Contract) :
    (l.2.effect c).registeredApps =
      (registered deps s l).foldl IterableSet.insert c.registeredApps := by
  rcases h with ⟨out, hout⟩
  rcases l with ⟨ctx, call⟩
  cases call with
  | onAppContractDeployed appId =>
      have hregistered : registered deps s (ctx, .onAppContractDeployed appId) = [appId] := by
        unfold registered
        rw [hout]
      rw [hregistered]
      rfl
  | _ => rfl

/-- No step takes an app back or moves it. -/
theorem registeredApps_next (s : State) (l : Label) :
    (registered deps s l).foldl IterableSet.insert (registeredApps s) =
      registeredApps (next deps s l) := by
  rcases next_cases deps s l with ⟨c, hc, hsucc, heffect⟩ | ⟨_, _, _, hc, _, hnew, hinit⟩ |
    ⟨hnot, hsame⟩
  · simp only [registeredApps, hc, heffect]
    exact (registeredApps_effect hsucc c).symm
  · have hnone : registered deps s l = [] := by
      unfold registered
      rw [hnew]
    simp only [registeredApps, hc, hinit, hnone]
    rfl
  · rw [registered_of_not_succeeds hnot, hsame]
    rfl

theorem registeredApps_grows (s : State) (l : Label) :
    (registeredApps s).elements <+: (registeredApps (next deps s l)).elements := by
  rw [← registeredApps_next]
  exact IterableSet.prefix_foldl_insert _ _

/-- The registered apps are the registrations of the run, each where it occurs first. -/
theorem registeredApps_run (ls : List Label) :
    (registeredApps (Transition.run (next deps) State.deployed ls)).elements =
      (registrations deps ls).eraseDups := by
  rw [← Transition.foldl_trace registeredApps_next State.deployed ls]
  exact IterableSet.elements_foldl_insert _

/-! ## The client -/

/-- The client reads page `i` and the following ones, until one is not full; between
two reads any calls are made. The offset is a 32-bit number like the limit. -/
inductive Reads (deps : Externals) (limit : UInt32) :
    State → Nat → List Label → List (List AccountId) → Prop
  | last {s : State} {c : Contract} {i : Nat} {offset : UInt32} : s.contract = some c →
      offset.toNat = i * limit.toNat →
      (c.getRegisteredApps offset limit).length < limit.toNat →
      Reads deps limit s i [] [c.getRegisteredApps offset limit]
  | more {s : State} {c : Contract} {i : Nat} {offset : UInt32} {between ls : List Label}
      {pages : List (List AccountId)} : s.contract = some c →
      offset.toNat = i * limit.toNat →
      (c.getRegisteredApps offset limit).length = limit.toNat →
      Reads deps limit (Transition.run (next deps) s between) (i + 1) ls pages →
      Reads deps limit s i (between ++ ls) (c.getRegisteredApps offset limit :: pages)

theorem getRegisteredApps_eq {s : State} {c : Contract} (hc : s.contract = some c) {i : Nat}
    {offset limit : UInt32} (hoffset : offset.toNat = i * limit.toNat) :
    c.getRegisteredApps offset limit =
      Paging.page limit.toNat i (registeredApps s).elements := by
  rw [Contract.getRegisteredApps, hoffset, registeredApps, hc]
  rfl

/-- The client is one of those that read a growing list page by page. -/
theorem Reads.session {limit : UInt32} {s : State} {i : Nat} {ls : List Label}
    {pages : List (List AccountId)} (h : Reads deps limit s i ls pages) :
    Paging.Session (next deps) (fun s => (registeredApps s).elements) limit.toNat s i ls
      pages := by
  induction h with
  | last hc hoffset hshort =>
      rw [getRegisteredApps_eq hc hoffset] at hshort ⊢
      exact .last hshort
  | more hc hoffset hfull _ ih =>
      rw [getRegisteredApps_eq hc hoffset] at hfull ⊢
      exact .more hfull ih

/-- At both ends of the session the contract is there. -/
theorem Reads.contract {limit : UInt32} {s : State} {i : Nat} {ls : List Label}
    {pages : List (List AccountId)} (h : Reads deps limit s i ls pages) :
    (∃ c, s.contract = some c) ∧
      ∃ c, (Transition.run (next deps) s ls).contract = some c := by
  induction h with
  | @last s c i offset hc _ _ => exact ⟨⟨c, hc⟩, ⟨c, hc⟩⟩
  | @more s c i offset between ls pages hc _ _ _ ih =>
      rw [Transition.run_append]
      exact ⟨⟨c, hc⟩, ih.2⟩

/-- Whatever happens between the reads, the pages together are the registered apps in
the order of their first registration, none of them twice: all that were registered at
the first read, and only such that are registered at the last one. -/
theorem pagination_stable {before ls : List Label} {limit : UInt32}
    {pages : List (List AccountId)}
    (h : Reads deps limit (Transition.run (next deps) State.deployed before) 0 ls pages) :
    pages.flatten.Nodup ∧
      pages.flatten = (registrations deps (before ++ ls)).eraseDups ∧
      (∃ c, (Transition.run (next deps) State.deployed before).contract = some c ∧
        ∀ a, a ∈ c.registeredApps → a ∈ pages.flatten) ∧
      ∃ c', (Transition.run (next deps) State.deployed (before ++ ls)).contract = some c' ∧
        ∀ a ∈ pages.flatten, a ∈ c'.registeredApps := by
  -- the pages are the registered apps at the last read
  have hflatten := h.session.flatten_eq registeredApps_grows
  rw [Nat.zero_mul, List.drop_zero] at hflatten
  rcases h.contract with ⟨⟨c, hc⟩, ⟨c', hc'⟩⟩
  have hgrow : ∀ s l,
      (registeredApps s).elements <+: (registeredApps (next deps s l)).elements :=
    registeredApps_grows
  have hgrown := Paging.prefix_run hgrow (Transition.run (next deps) State.deployed before) ls
  rw [← hflatten] at hgrown
  refine ⟨?_, ?_, ⟨c, hc, ?_⟩, ⟨c', by rw [Transition.run_append]; exact hc', ?_⟩⟩
  · rw [hflatten]
    exact (registeredApps _).nodup
  · rw [hflatten, ← Transition.run_append, registeredApps_run]
  · intro a ha
    refine hgrown.subset ?_
    rw [registeredApps, hc]
    exact ha
  · intro a ha
    rw [hflatten, registeredApps, hc'] at ha
    exact ha

def contractWithApps (apps : IterableSet AccountId) : Contract :=
  { Contract.new ⟨"mpc.near"⟩ 2 with registeredApps := apps }

/-- The state in which some apps are registered. -/
def stateWithApps (apps : IterableSet AccountId) : State :=
  { stateWith .new with contract := some (contractWithApps apps) }

/-- The callback that answers a successful deployment. -/
def callbackFor (appId : AccountId) : Label :=
  ({ callBy kmsAccount 0 with promiseResults := [true] }, .onAppContractDeployed appId)

theorem next_callbackFor (apps : IterableSet AccountId) (appId : AccountId) :
    next deps (stateWithApps apps) (callbackFor appId) = stateWithApps (apps.insert appId) := by
  have hok : exec deps (callbackFor appId).1 (stateWithApps apps) (callbackFor appId).2 =
      .ok { state := stateWithApps (apps.insert appId), events := [.appDeployed appId],
            promise := none } :=
    onAppContractDeployed_eq_ok.2 ⟨rfl, rfl, rfl, _, rfl, rfl⟩
  exact next_of_ok hok

def twoApps : IterableSet AccountId := (IterableSet.new.insert ⟨"a.near"⟩).insert ⟨"b.near"⟩

theorem run_twoApps :
    Transition.run (next deps) State.deployed
      [initCall, callbackFor ⟨"a.near"⟩, callbackFor ⟨"b.near"⟩] = stateWithApps twoApps := by
  have hinit : next deps State.deployed initCall = stateWithApps .new := next_initCall
  simp only [Transition.run_cons, Transition.run_nil, hinit, next_callbackFor]
  rfl

/-- A client with pages of two: before the first read two apps are registered, before
the second one of them again and a third one. -/
theorem reads_sample :
    Reads hashing 2 (stateWithApps twoApps) 0
      [callbackFor ⟨"a.near"⟩, callbackFor ⟨"c.near"⟩]
      [[⟨"a.near"⟩, ⟨"b.near"⟩], [⟨"c.near"⟩]] := by
  have hsecond : Transition.run (next hashing) (stateWithApps twoApps)
      [callbackFor ⟨"a.near"⟩, callbackFor ⟨"c.near"⟩] =
        stateWithApps ((twoApps.insert ⟨"a.near"⟩).insert ⟨"c.near"⟩) := by
    simp only [Transition.run_cons, Transition.run_nil, next_callbackFor]
  have hpage₀ : (contractWithApps twoApps).getRegisteredApps 0 2 =
      [⟨"a.near"⟩, ⟨"b.near"⟩] := by decide
  have hpage₁ : (contractWithApps ((twoApps.insert ⟨"a.near"⟩).insert
      ⟨"c.near"⟩)).getRegisteredApps 2 2 = [⟨"c.near"⟩] := by decide
  have hlast : Reads hashing 2 (Transition.run (next hashing) (stateWithApps twoApps)
      [callbackFor ⟨"a.near"⟩, callbackFor ⟨"c.near"⟩]) 1 [] [[⟨"c.near"⟩]] := by
    rw [hsecond, ← hpage₁]
    exact .last rfl rfl (by rw [hpage₁]; decide)
  rw [← hpage₀]
  exact Reads.more rfl rfl (by rw [hpage₀]; rfl) hlast

/-- What that client has read. -/
theorem pagination_stable_sample :
    [[⟨"a.near"⟩, ⟨"b.near"⟩], [(⟨"c.near"⟩ : AccountId)]].flatten =
      (registrations hashing
        ([initCall, callbackFor ⟨"a.near"⟩, callbackFor ⟨"b.near"⟩] ++
          [callbackFor ⟨"a.near"⟩, callbackFor ⟨"c.near"⟩])).eraseDups := by
  have hreads := reads_sample
  rw [← run_twoApps] at hreads
  exact (pagination_stable hreads).2.1

end NearKms.Kms
