import NearKms.Kms.Events
import NearKms.Kms.Registry
import NearKms.Kms.RootKey

/-!
# What a pause stops

Two methods look at the pauses, and both write nothing. So a pause stops these two, as
long as it lasts, and leaves no other trace: a run goes on as if nobody had paused or
resumed anything.
-/

namespace NearKms.Kms

variable {deps : Externals}

/-! ## Pauses -/

/-- The key under which a method is paused; only these two ask. -/
def Call.pauseKey : Call → Option String
  | .requestKmsRootKey .. => some "request_kms_root_key"
  | .registerApp _ => some "register_app"
  | _ => none

def PausedIn (key : String) (keys : List String) : Prop := key ∈ keys ∨ "ALL" ∈ keys

/-- The method with this key is paused, by itself or with all others. -/
def Paused (key : String) (s : State) : Prop := PausedIn key s.plugins.pausedKeys

/-- The state with other pauses. -/
def State.withPaused (keys : List String) (s : State) : State :=
  { s with plugins := { s.plugins with pausedKeys := keys } }

def Outcome.withPaused (keys : List String) (out : Outcome) : Outcome :=
  { out with state := out.state.withPaused keys }

/-- A plugin call that pauses or resumes, and leaves the roles as they are. -/
def Toggles (s : State) (l : Label) : Prop :=
  ∃ plugins, l.2 = .plugin plugins ∧ plugins.acl = s.plugins.acl

/-! ## One call -/

theorem ownerMethod_withPaused (keys : List String) (ctx : Context) (s : State)
    (body : Contract → Except Panic (Contract × List Event)) :
    ownerMethod ctx (s.withPaused keys) body =
      (ownerMethod ctx s body).map (Outcome.withPaused keys) := by
  simp only [ownerMethod, map_bind_eq]
  rfl

/-- Where it is asked for the same answer, a call does the same under other pauses. -/
theorem exec_withPaused {keys : List String} {s : State} {call : Call} (ctx : Context)
    (hcall : ∀ plugins, call ≠ .plugin plugins)
    (hkey : ∀ key, call.pauseKey = some key → (PausedIn key keys ↔ Paused key s)) :
    exec deps ctx (s.withPaused keys) call =
      (exec deps ctx s call).map (Outcome.withPaused keys) := by
  have hpaused : ∀ key, call.pauseKey = some key →
      assertNotPaused key (s.withPaused keys).plugins = assertNotPaused key s.plugins := by
    intro key hk
    simp only [assertNotPaused]
    exact if_congr (hkey key hk) rfl rfl
  cases call with
  | plugin plugins => exact absurd rfl (hcall plugins)
  | new ownerId mpcContractId mpcDomainId =>
      simp only [exec, new, map_bind_eq]
      rfl
  | requestKmsRootKey quoteHex collateral tcbInfo workerPublicKey =>
      simp only [exec, requestKmsRootKey, map_bind_eq, hpaused _ rfl]
      rfl
  | registerApp args =>
      simp only [exec, registerApp, map_bind_eq, hpaused _ rfl]
      rfl
  | onAppContractDeployed appId =>
      have hresult : ∀ (result : Bool) (x y : Except Panic Outcome) (f : Outcome → Outcome),
          (if result = true then x else y).map f = if result = true then x.map f else y.map f :=
        fun _ _ _ _ => apply_ite ..
      simp only [exec, onAppContractDeployed, map_bind_eq, hresult]
      rfl
  | _ => exact ownerMethod_withPaused ..

/-- The same contract and the same roles, under whatever pauses. -/
def SameButPaused (s s' : State) : Prop :=
  s' = s.withPaused s'.plugins.pausedKeys

theorem sameButPaused_iff {s s' : State} :
    SameButPaused s s' ↔ s.contract = s'.contract ∧ s.plugins.acl = s'.plugins.acl := by
  rcases s with ⟨contract, acl, keys⟩
  rcases s' with ⟨contract', acl', keys'⟩
  simp [SameButPaused, State.withPaused, eq_comm]

theorem pauseKey_eq_none {call : Call} (h : ¬ call.Silent) : call.pauseKey = none := by
  cases call with
  | requestKmsRootKey | registerApp => exact absurd trivial h
  | _ => rfl

/-- A call that writes does the same to both. -/
theorem exec_sameButPaused {s s' : State} {ctx : Context} {call : Call} (h : SameButPaused s s')
    (hcall : ∀ plugins, call ≠ .plugin plugins) (hsilent : ¬ call.Silent) :
    exec deps ctx s' call =
      (exec deps ctx s call).map (Outcome.withPaused s'.plugins.pausedKeys) := by
  have hkey : ∀ key, call.pauseKey = some key →
      (PausedIn key s'.plugins.pausedKeys ↔ Paused key s) := by
    intro key hk
    rw [pauseKey_eq_none hsilent] at hk
    cases hk
  rw [← exec_withPaused ctx hcall hkey]
  exact congrArg (exec deps ctx · call) h

theorem sameButPaused_next {s s' : State} (l : Label) (h : SameButPaused s s') :
    SameButPaused (next deps s l) (next deps s' l) := by
  rcases l with ⟨ctx, call⟩
  by_cases hsilent : call.Silent
  · rw [next_silent hsilent, next_silent hsilent]
    exact h
  · by_cases hplugin : ∃ plugins, call = .plugin plugins
    · rcases hplugin with ⟨plugins, rfl⟩
      rcases s with ⟨contract, plugins'⟩
      rcases s' with ⟨contract', plugins''⟩
      obtain rfl : contract = contract' := (sameButPaused_iff.1 h).1
      cases contract with
      | none => exact h
      | some c => exact sameButPaused_iff.2 ⟨rfl, rfl⟩
    · have hexec : exec deps ctx s' call = _ :=
        exec_sameButPaused h (fun plugins hp => hplugin ⟨plugins, hp⟩) hsilent
      simp only [next, hexec]
      cases exec deps ctx s call with
      | error e => exact h
      | ok out => rfl

theorem sameButPaused_of_toggles {s s' : State} {l : Label} (hl : Toggles s l)
    (h : SameButPaused s s') : SameButPaused (next deps s l) s' := by
  rcases l with ⟨ctx, call⟩
  rcases hl with ⟨plugins, rfl, hacl⟩
  rcases sameButPaused_iff.1 h with ⟨hcontract, hacl'⟩
  rcases s with ⟨_ | c, plugins'⟩
  · exact h
  · exact sameButPaused_iff.2 ⟨hcontract, hacl.trans hacl'⟩

theorem emitted_congr {s s' : State} (l : Label) (h : SameButPaused s s') :
    emitted deps s l = emitted deps s' l := by
  rcases l with ⟨ctx, call⟩
  by_cases hsilent : call.Silent
  · -- neither of the two methods emits an event
    have hnone : ∀ t, emitted deps t (ctx, call) = [] := by
      intro t
      by_cases hsucc : Succeeds deps t (ctx, call)
      · rw [emitted_of_succeeds hsucc]
        cases call with
        | requestKmsRootKey | registerApp => rfl
        | _ => cases hsilent
      · exact emitted_of_not_succeeds hsucc
    rw [hnone, hnone]
  · by_cases hplugin : ∃ plugins, call = .plugin plugins
    · rcases hplugin with ⟨plugins, rfl⟩
      rcases s with ⟨contract, plugins'⟩
      rcases s' with ⟨contract', plugins''⟩
      obtain rfl : contract = contract' := (sameButPaused_iff.1 h).1
      cases contract <;> rfl
    · have hexec : exec deps ctx s' call = _ :=
        exec_sameButPaused h (fun plugins hp => hplugin ⟨plugins, hp⟩) hsilent
      simp only [emitted, hexec]
      cases exec deps ctx s call <;> rfl

theorem emitted_of_toggles {s : State} {l : Label} (hl : Toggles s l) :
    emitted deps s l = [] := by
  rcases l with ⟨ctx, call⟩
  rcases hl with ⟨plugins, rfl, -⟩
  rcases s with ⟨_ | c, plugins'⟩ <;> rfl

/-! ## Runs with pauses -/

theorem not_paused_of_succeeds {s : State} {ctx : Context} {call : Call}
    (h : Succeeds deps s (ctx, call)) (key : String) (hkey : call.pauseKey = some key) :
    ¬ Paused key s := by
  rcases h with ⟨out, hout⟩
  cases call with
  | requestKmsRootKey quoteHex collateral tcbInfo workerPublicKey =>
      obtain rfl : "request_kms_root_key" = key := Option.some.inj hkey
      simp only [exec, requestKmsRootKey, bind_eq_ok, assertNotPaused_eq_ok] at hout
      rcases hout with ⟨_, _, _, hnot, _⟩
      exact not_or.2 hnot
  | registerApp args =>
      obtain rfl : "register_app" = key := Option.some.inj hkey
      simp only [exec, registerApp, bind_eq_ok, assertNotPaused_eq_ok] at hout
      rcases hout with ⟨_, _, _, hnot, _⟩
      exact not_or.2 hnot
  | _ => cases hkey

/-- A call to the plugins succeeds under any pauses, and is never paused itself. -/
theorem succeeds_plugin_withPaused (keys : List String) (s : State) (ctx : Context)
    (plugins : Plugins Role) :
    Succeeds deps (s.withPaused keys) (ctx, .plugin plugins) ↔
      Succeeds deps s (ctx, .plugin plugins) := by
  rcases s with ⟨_ | c, plugins'⟩
  · constructor <;> rintro ⟨out, hout⟩ <;> cases hout
  · exact ⟨fun _ => ⟨_, rfl⟩, fun _ => ⟨_, rfl⟩⟩

/-- Where nothing pauses it, a call succeeds as if nothing were paused. -/
theorem succeeds_withPaused {s : State} {ctx : Context} {call : Call}
    (hnot : ∀ key, call.pauseKey = some key → ¬ Paused key s) :
    Succeeds deps (s.withPaused []) (ctx, call) ↔ Succeeds deps s (ctx, call) := by
  by_cases hplugin : ∃ plugins, call = .plugin plugins
  · rcases hplugin with ⟨plugins, rfl⟩
    exact succeeds_plugin_withPaused [] s ctx plugins
  · have hkey : ∀ key, call.pauseKey = some key → (PausedIn key [] ↔ Paused key s) := by
      intro key hk
      exact iff_of_false (by simp [PausedIn]) (hnot key hk)
    have hexec : exec deps ctx (s.withPaused []) call = _ :=
      exec_withPaused ctx (fun plugins hp => hplugin ⟨plugins, hp⟩) hkey
    simp only [Succeeds, hexec]
    cases exec deps ctx s call <;> simp [Except.map]

/-- A call succeeds exactly if it is not paused and succeeds where nothing is. -/
theorem succeeds_iff_not_paused {s : State} {ctx : Context} {call : Call} :
    Succeeds deps s (ctx, call) ↔
      (∀ key, call.pauseKey = some key → ¬ Paused key s) ∧
        Succeeds deps (s.withPaused []) (ctx, call) := by
  constructor
  · intro hsucc
    have hnot := not_paused_of_succeeds hsucc
    exact ⟨hnot, (succeeds_withPaused hnot).2 hsucc⟩
  · rintro ⟨hnot, hsucc⟩
    exact (succeeds_withPaused hnot).1 hsucc

/-- Leave out of a run any of the calls that pause or resume: the contract, the roles
and the events are the same. At the end a call succeeds exactly if it is not paused
and succeeds at the end of the other run, with its pauses lifted. -/
theorem pauses_stop_nothing_else {s : State} {ls ms : List Label}
    (h : Transition.Thins (next deps) Toggles s ls ms) :
    let t := Transition.run (next deps) s ls
    let t' := Transition.run (next deps) s ms
    t.contract = t'.contract ∧ t.plugins.acl = t'.plugins.acl ∧
      Transition.trace (next deps) (emitted deps) s ls =
        Transition.trace (next deps) (emitted deps) s ms ∧
      ∀ ctx call, Succeeds deps t (ctx, call) ↔
        (∀ key, call.pauseKey = some key → ¬ Paused key t) ∧
          Succeeds deps (t'.withPaused []) (ctx, call) := by
  intro t t'
  have hstep : ∀ s s' l, SameButPaused s s' → SameButPaused (next deps s l) (next deps s' l) :=
    fun _ _ l => sameButPaused_next l
  have hsilent : ∀ s s' l, Toggles s l → SameButPaused s s' → SameButPaused (next deps s l) s' :=
    fun _ _ _ => sameButPaused_of_toggles
  have hrefl : SameButPaused s s := sameButPaused_iff.2 ⟨rfl, rfl⟩
  have hend : SameButPaused t t' := Transition.run_thins hstep hsilent h hrefl
  rcases sameButPaused_iff.1 hend with ⟨hcontract, hacl⟩
  refine ⟨hcontract, hacl, ?_, ?_⟩
  · exact Transition.trace_thins hstep hsilent (fun _ _ l => emitted_congr l)
      (fun _ _ => emitted_of_toggles) h hrefl
  · intro ctx call
    have hlifted : t'.withPaused [] = t.withPaused [] := by
      simp only [State.withPaused, hcontract, hacl]
    rw [hlifted]
    exact succeeds_iff_not_paused

/-- The owner pauses everything. -/
def pauseAll : Label :=
  (callBy ownerAccount 0, .plugin ⟨⟨[ownerAccount], [(Role.owner, ownerAccount)]⟩, ["ALL"]⟩)

/-- The owner pauses everything and approves a hash, which is stored as without the pause. -/
theorem approval_while_paused :
    (Transition.run (next hashing) State.deployed
        [initCall, pauseAll, (callBy ownerAccount 0, .addKmsComposeHash kmsDockerHash)]).contract =
      (Transition.run (next hashing) State.deployed
        [initCall, (callBy ownerAccount 0, .addKmsComposeHash kmsDockerHash)]).contract := by
  have hthins : Transition.Thins (next hashing) Toggles State.deployed
      [initCall, pauseAll, (callBy ownerAccount 0, .addKmsComposeHash kmsDockerHash)]
      [initCall, (callBy ownerAccount 0, .addKmsComposeHash kmsDockerHash)] := by
    refine .keep (.drop ⟨_, rfl, ?_⟩ (.keep (.nil _)))
    rw [next_initCall]
    rfl
  exact (pauses_stop_nothing_else hthins).1

end NearKms.Kms
