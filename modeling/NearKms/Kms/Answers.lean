import NearKms.Attestation.Interference
import NearKms.Kms.Registry
import NearKms.Kms.RootKey

/-!
# What shows of the stored order

A registry leaves out nothing but the order in which sets are stored. Here: that the
contract answers every call as the registry decides, the root key method with its
conversion and its verifier included. So calls that write different cells may be made
in either order, and no answer shows in which.
-/

namespace NearKms.Kms

variable {deps : Externals}

/-! ## The registry decides every answer -/

/-- What a call shows: the registry it leaves behind, its events and its promise. -/
structure Answer where
  registry : Registry
  events : List Event
  promise : Option Promise

def Outcome.answer (out : Outcome) : Answer := ⟨Registry.ofState out.state, out.events, out.promise⟩

/-- Where a conversion fails, and there is one way in which it can, this is how it does. -/
theorem mapM_eq_error {α β : Type} {f : α → Except Panic β} {panic : Panic}
    (hf : ∀ x e, f x = .error e → e = panic) {xs : List α} (h : ¬ ∃ ys, xs.mapM f = .ok ys) :
    xs.mapM f = .error panic := by
  induction xs with
  | nil => exact absurd ⟨[], rfl⟩ h
  | cons x xs ih =>
      rw [List.mapM_cons]
      cases hx : f x with
      | error e =>
          rw [hf x e hx, error_bind]
      | ok y =>
          have hxs : ¬ ∃ ys, xs.mapM f = .ok ys := by
            rintro ⟨ys, hys⟩
            exact h ⟨y :: ys, mapM_eq_ok.2 (List.Forall₂.cons hx (mapM_eq_ok.1 hys))⟩
          rw [ih hxs, ok_bind, error_bind]

theorem allowedDockerComposeHashes_eq_error {c : Contract} (h : ¬ Usable c) :
    allowedDockerComposeHashes c = .error (.message "Invalid compose hash") := by
  refine mapM_eq_error ?_ fun hok => h (exists_allowedDockerComposeHashes_iff.1 hok)
  intro x e he
  unfold unwrapOr at he
  split at he
  · cases he
  · exact (Except.error.inj he).symm

section Congr

variable {c c' : Contract} (h : Content.ofContract c = Content.ofContract c')

include h

theorem mem_entries_congr (list : AllowList) (x : String) :
    x ∈ list.entries c ↔ x ∈ list.entries c' :=
  Set.ext_iff.1 (congrArg Content.listed h) (list, x)

theorem mem_registeredApps_congr (appId : AccountId) :
    appId ∈ c.registeredApps ↔ appId ∈ c'.registeredApps :=
  Set.ext_iff.1 (congrArg Content.registered h) appId

/-- A list of the same strings converts alike. -/
theorem usable_congr : Usable c ↔ Usable c' :=
  forall_congr' fun x => imp_congr_left (mem_entries_congr h .composeHashes x)

/-- The contract after a call that writes. -/
theorem effect_congr {call : Call} {w : Write} (hw : call.write = some w) :
    Content.ofContract (call.effect c) = Content.ofContract (call.effect c') := by
  rw [ofContract_effect hw, ofContract_effect hw, h]

omit h in
/-- A method of the owner answers alike if what it stores is the same registry. -/
theorem ownerMethod_congr {ctx : Context} {plugins : Plugins Role}
    {body : Contract → Except Panic (Contract × List Event)} (guard : Except Panic Unit)
    {d d' : Contract} {events : List Event} (hd : Content.ofContract d = Content.ofContract d')
    (hbody : body c = guard >>= fun _ => pure (d, events))
    (hbody' : body c' = guard >>= fun _ => pure (d', events)) :
    (ownerMethod ctx ⟨some c, plugins⟩ body).map Outcome.answer =
      (ownerMethod ctx ⟨some c', plugins⟩ body).map Outcome.answer := by
  refine map_bind_congr fun _ => ?_
  show (accessControlAny _ _ _ >>= _).map _ = (accessControlAny _ _ _ >>= _).map _
  refine map_bind_congr fun _ => ?_
  rw [hbody, hbody']
  cases guard with
  | error e => rfl
  | ok _ =>
      refine congrArg Except.ok ?_
      show Answer.mk ⟨some (Content.ofContract d), _⟩ _ _ =
        Answer.mk ⟨some (Content.ofContract d'), _⟩ _ _
      rw [hd]

theorem registry_congr (plugins : Plugins Role) :
    Registry.ofState ⟨some c, plugins⟩ = Registry.ofState ⟨some c', plugins⟩ := by
  rw [Registry.ofState, Option.map_some, h]
  rfl

/-- A request gets the same answer: the conversion fails for both, or the verifier
finds the same hash on both lists. -/
theorem requestKmsRootKey_congr (ctx : Context) (plugins : Plugins Role)
    (quoteHex collateral tcbInfo workerPublicKey : String) :
    (requestKmsRootKey deps ctx ⟨some c, plugins⟩ quoteHex collateral tcbInfo
        workerPublicKey).map Outcome.answer =
      (requestKmsRootKey deps ctx ⟨some c', plugins⟩ quoteHex collateral tcbInfo
        workerPublicKey).map Outcome.answer := by
  show (assertNotPaused _ plugins >>= _).map _ = (assertNotPaused _ plugins >>= _).map _
  refine map_bind_congr fun _ => map_bind_congr fun _ => map_bind_congr fun quote =>
    map_bind_congr fun collateralData => map_bind_congr fun tcbInfoData => ?_
  by_cases husable : Usable c
  · rcases exists_allowedDockerComposeHashes_iff.2 husable with ⟨hashes, hhashes⟩
    rcases exists_allowedDockerComposeHashes_iff.2 ((usable_congr h).1 husable) with
      ⟨hashes', hhashes'⟩
    have hmem : ∀ hash, hash ∈ hashes ↔ hash ∈ hashes' := by
      intro hash
      rw [mem_of_allowedDockerComposeHashes hhashes, mem_of_allowedDockerComposeHashes hhashes']
      exact exists_congr fun x => and_congr_left fun _ => mem_entries_congr h .composeHashes x
    have hverify : ∀ a expectedReportData timestampS,
        Attestation.verify deps (.dstack a) expectedReportData timestampS [] hashes =
          Attestation.verify deps (.dstack a) expectedReportData timestampS [] hashes' :=
      fun a _ _ => Attestation.verify_congr rfl rfl ⟨rfl, rfl, rfl, rfl, rfl, rfl, rfl, rfl⟩ hmem
    have hmpc : c.mpcContractId = c'.mpcContractId := congrArg Content.mpcContractId h
    have hdomain : c.mpcDomainId = c'.mpcDomainId := congrArg Content.mpcDomainId h
    rw [hhashes, hhashes', ok_bind, ok_bind]
    simp only [hverify]
    refine map_bind_congr fun _ => ?_
    show Except.ok (Answer.mk (Registry.ofState ⟨some c, plugins⟩) _ _) =
      Except.ok (Answer.mk (Registry.ofState ⟨some c', plugins⟩) _ _)
    rw [registry_congr h plugins, hmpc, hdomain]
  · have husable' : ¬ Usable c' := fun hu => husable ((usable_congr h).2 hu)
    rw [allowedDockerComposeHashes_eq_error husable, allowedDockerComposeHashes_eq_error husable',
      error_bind, error_bind]

end Congr

/-- States with the same registry answer every call alike: with the same panic, or with
the same events, the same promise and the same registry. -/
theorem exec_congr {s s' : State} (h : Registry.ofState s = Registry.ofState s') (ctx : Context)
    (call : Call) :
    (exec deps ctx s call).map Outcome.answer = (exec deps ctx s' call).map Outcome.answer := by
  rcases s with ⟨_ | c, plugins⟩
  · rcases s' with ⟨_ | c', plugins'⟩
    · obtain rfl : plugins = plugins' := congrArg Registry.plugins h
      rfl
    · cases congrArg Registry.content h
  · rcases s' with ⟨_ | c', plugins'⟩
    · cases congrArg Registry.content h
    · obtain rfl : plugins = plugins' := congrArg Registry.plugins h
      have hcontent : Content.ofContract c = Content.ofContract c' :=
        Option.some.inj (congrArg Registry.content h)
      have heffect : ∀ w, call.write = some w →
          Content.ofContract (call.effect c) = Content.ofContract (call.effect c') :=
        fun w hw => effect_congr hcontent hw
      cases call with
      | new ownerId mpcContractId mpcDomainId =>
          exact map_bind_congr fun _ => map_bind_congr fun _ => rfl
      | requestKmsRootKey quoteHex collateral tcbInfo workerPublicKey =>
          exact requestKmsRootKey_congr hcontent ctx plugins quoteHex collateral tcbInfo
            workerPublicKey
      | registerApp args =>
          show (assertNotPaused _ plugins >>= _).map _ = (assertNotPaused _ plugins >>= _).map _
          refine map_bind_congr fun _ => map_bind_congr fun _ => map_bind_congr fun _ =>
            map_bind_congr fun _ => map_bind_congr fun account => ?_
          exact congrArg (fun r => Except.ok (Answer.mk r _ _)) h
      | onAppContractDeployed appId =>
          refine map_bind_congr fun _ => map_bind_congr fun _ => ?_
          show (callbackResult ctx >>= _).map _ = (callbackResult ctx >>= _).map _
          refine map_bind_congr fun result => ?_
          cases result with
          | false => rfl
          | true =>
              exact congrArg (fun r => Except.ok (Answer.mk r _ _))
                (registry_congr (heffect _ rfl) plugins)
      | plugin plugins' =>
          show Except.ok (Answer.mk (Registry.ofState ⟨some c, plugins'⟩) [] none) =
            Except.ok (Answer.mk (Registry.ofState ⟨some c', plugins'⟩) [] none)
          rw [registry_congr hcontent plugins']
      | addOsImageHash | addKmsAggregatedMr | addKmsDevice =>
          exact ownerMethod_congr (require _ _) (heffect _ rfl) rfl rfl
      | _ => exact ownerMethod_congr (pure ()) (heffect _ rfl) rfl rfl

/-- Nor does any number of calls between tell them apart. -/
theorem exec_run_congr {s s' : State} (h : Registry.ofState s = Registry.ofState s')
    (ls : List Label) (ctx : Context) (call : Call) :
    (exec deps ctx (Transition.run (Kms.next deps) s ls) call).map Outcome.answer =
      (exec deps ctx (Transition.run (Kms.next deps) s' ls) call).map Outcome.answer := by
  refine exec_congr ?_ ctx call
  rw [ofState_run, ofState_run, h]

/-- The view methods of two contracts say the same, the lists up to their order. Left out
are the pages of `get_registered_apps`: the apps are the same, but a page is cut from them
as they are stored, so the page `(0, 1)` of two contracts may hold different apps. -/
structure SameViews (c c' : Contract) : Prop where
  isKmsAllowed : ∀ bootInfo, c.isKmsAllowed bootInfo = c'.isKmsAllowed bootInfo
  isAppRegistered : ∀ appId, c.isAppRegistered appId = c'.isAppRegistered appId
  isOsImageAllowed : ∀ x, c.isOsImageAllowed x = c'.isOsImageAllowed x
  isKmsAggregatedMrAllowed : ∀ x, c.isKmsAggregatedMrAllowed x = c'.isKmsAggregatedMrAllowed x
  isKmsDeviceAllowed : ∀ x, c.isKmsDeviceAllowed x = c'.isKmsDeviceAllowed x
  isKmsComposeHashAllowed : ∀ x, c.isKmsComposeHashAllowed x = c'.isKmsComposeHashAllowed x
  getGatewayAppId : c.getGatewayAppId = c'.getGatewayAppId
  getKmsInfo : c.getKmsInfo = c'.getKmsInfo
  getAllowedOsImages : c.getAllowedOsImages.Perm c'.getAllowedOsImages
  getKmsAllowedAggregatedMrs :
    c.getKmsAllowedAggregatedMrs.Perm c'.getKmsAllowedAggregatedMrs
  getKmsAllowedDeviceIds : c.getKmsAllowedDeviceIds.Perm c'.getKmsAllowedDeviceIds
  getKmsAllowedComposeHashes :
    c.getKmsAllowedComposeHashes.Perm c'.getKmsAllowedComposeHashes
  registeredApps : c.registeredApps.elements.Perm c'.registeredApps.elements

/-- Sets with the same members answer membership alike. -/
theorem contains_congr {α : Type} [DecidableEq α] {s t : IterableSet α}
    (h : ∀ x, x ∈ s ↔ x ∈ t) (x : α) : s.contains x = t.contains x := by
  rw [Bool.eq_iff_iff, IterableSet.contains_iff, IterableSet.contains_iff, h]

theorem elements_perm {α : Type} {s t : IterableSet α} (h : ∀ x, x ∈ s ↔ x ∈ t) :
    s.elements.Perm t.elements :=
  (List.perm_ext_iff_of_nodup s.nodup t.nodup).2 h

theorem isKmsAllowed_congr {c c' : Contract}
    (h : Content.ofContract c = Content.ofContract c') (bootInfo : AppBootInfo) :
    c.isKmsAllowed bootInfo = c'.isKmsAllowed bootInfo := by
  have hlisted := mem_entries_congr h
  have hos := contains_congr (hlisted .osImages) bootInfo.osImageHash
  have hmr := contains_congr (hlisted .aggregatedMrs) bootInfo.mrAggregated
  have hdevice := contains_congr (hlisted .deviceIds) bootInfo.deviceId
  simp only [AllowList.entries] at hos hmr hdevice
  simp only [Contract.isKmsAllowed, hos, hmr, hdevice]

theorem sameViews_of_content {c c' : Contract}
    (h : Content.ofContract c = Content.ofContract c') : SameViews c c' := by
  have hcontains : ∀ (list : AllowList) x,
      (list.entries c).contains x = (list.entries c').contains x :=
    fun list => contains_congr (mem_entries_congr h list)
  have hperm : ∀ list : AllowList, (list.entries c).elements.Perm (list.entries c').elements :=
    fun list => elements_perm (mem_entries_congr h list)
  exact {
    isKmsAllowed := isKmsAllowed_congr h
    isAppRegistered := contains_congr (mem_registeredApps_congr h)
    isOsImageAllowed := hcontains .osImages
    isKmsAggregatedMrAllowed := hcontains .aggregatedMrs
    isKmsDeviceAllowed := hcontains .deviceIds
    isKmsComposeHashAllowed := hcontains .composeHashes
    getGatewayAppId := congrArg Content.gatewayAppId h
    getKmsInfo := congrArg Content.kmsInfo h
    getAllowedOsImages := hperm .osImages
    getKmsAllowedAggregatedMrs := hperm .aggregatedMrs
    getKmsAllowedDeviceIds := hperm .deviceIds
    getKmsAllowedComposeHashes := hperm .composeHashes
    registeredApps := elements_perm (mem_registeredApps_congr h) }

/-- The registry before the initialization. -/
def Registry.deployed : Registry := ⟨none, ⟨⟨[], []⟩, []⟩⟩

/-- In every run the contract stores what the registry prescribes, which knows sets, but
no order, no parser and no verifier; and the registry decides all that the contract
answers from then on, to calls and to view methods, the pages of the apps left out. -/
theorem contract_refines_registry (deps : Externals) :
    (∀ ls, Registry.ofState (Transition.run (Kms.next deps) State.deployed ls) =
        Transition.run Registry.next Registry.deployed ls) ∧
      (∀ s s', Registry.ofState s = Registry.ofState s' → ∀ ls ctx call,
        (exec deps ctx (Transition.run (Kms.next deps) s ls) call).map Outcome.answer =
          (exec deps ctx (Transition.run (Kms.next deps) s' ls) call).map Outcome.answer) ∧
      ∀ c c', Content.ofContract c = Content.ofContract c' → SameViews c c' :=
  ⟨ofState_run State.deployed, fun _ _ => exec_run_congr, fun _ _ => sameViews_of_content⟩

/-! ## The order of calls -/

/-- Calls whose order does not matter: one of them writes nothing, or they write
different cells, or they are the same call. -/
def Independent (l m : Label) : Prop :=
  l.2.Silent ∨ m.2.Silent ∨
    ∃ w w', l.2.write = some w ∧ m.2.write = some w' ∧ (w.cell ≠ w'.cell ∨ l.2 = m.2)

namespace Registry

theorem next_comm {l m : Label} (h : Independent l m) (r : Registry) :
    (r.next l).next m = (r.next m).next l := by
  rcases l with ⟨ctx, call⟩
  rcases m with ⟨ctx', call'⟩
  rcases h with hsilent | hsilent | ⟨w, w', hw, hw', hcells⟩
  · rw [next_silent hsilent, next_silent hsilent]
  · rw [next_silent hsilent, next_silent hsilent]
  · have hcomm : ∀ k, w'.apply (w.apply k) = w.apply (w'.apply k) := by
      intro k
      rcases hcells with hne | hsame
      · exact Write.apply_comm hne.symm k
      · obtain rfl : w = w' := Option.some.inj (hw.symm.trans ((congrArg _ hsame).trans hw'))
        rfl
    rcases r with ⟨_ | k, plugins⟩
    · rw [next_none rfl (Call.ne_new_of_write hw), next_none rfl (Call.ne_new_of_write hw'),
        next_none rfl (Call.ne_new_of_write hw)]
    · by_cases hp : Permits ctx plugins call
      · by_cases hp' : Permits ctx' plugins call'
        · rw [next_of_permits rfl hw hp, next_of_permits rfl hw' hp', next_of_permits rfl hw' hp',
            next_of_permits rfl hw hp, hcomm]
        · rw [next_of_permits rfl hw hp, next_of_not_permits hw' hp', next_of_not_permits hw' hp',
            next_of_permits rfl hw hp]
      · rw [next_of_not_permits hw hp]
        by_cases hp' : Permits ctx' plugins call'
        · rw [next_of_permits rfl hw' hp', next_of_not_permits hw hp]
        · rw [next_of_not_permits hw' hp', next_of_not_permits hw hp]

end Registry

/-- Calls that differ in the order of independent ones end in the same registry: every
later call is answered alike, and so is every view method but a page of the apps, whatever
order the sets are stored in. -/
theorem reordered_calls_answered_alike {ls ms : List Label}
    (h : Transition.Reordered Independent ls ms) (s : State) (rest : List Label) :
    (∀ ctx call,
        (exec deps ctx (Transition.run (Kms.next deps) s (ls ++ rest)) call).map Outcome.answer =
          (exec deps ctx (Transition.run (Kms.next deps) s (ms ++ rest)) call).map
            Outcome.answer) ∧
      ∀ c c', (Transition.run (Kms.next deps) s (ls ++ rest)).contract = some c →
        (Transition.run (Kms.next deps) s (ms ++ rest)).contract = some c' → SameViews c c' := by
  have hreordered : Registry.ofState (Transition.run (Kms.next deps) s ls) =
      Registry.ofState (Transition.run (Kms.next deps) s ms) := by
    rw [ofState_run, ofState_run]
    exact Transition.run_reordered (fun r _ _ hlm => Registry.next_comm hlm r) h _
  have hsame : Registry.ofState (Transition.run (Kms.next deps) s (ls ++ rest)) =
      Registry.ofState (Transition.run (Kms.next deps) s (ms ++ rest)) := by
    rw [Transition.run_append, Transition.run_append, ofState_run _ rest, ofState_run _ rest,
      hreordered]
  constructor
  · intro ctx call
    exact exec_congr hsame ctx call
  · intro c c' hc hc'
    have hcontent := congrArg Registry.content hsame
    rw [Registry.ofState, Registry.ofState, hc, hc'] at hcontent
    exact sameViews_of_content (Option.some.inj hcontent)

/-- Two approvals in either order store the list in either order, and it does not show. -/
theorem reordered_approvals_answered_alike :
    Transition.run (Kms.next hashing) State.deployed
        [initCall, (callBy ownerAccount 0, .addKmsComposeHash "a"),
          (callBy ownerAccount 0, .addKmsComposeHash "b")] ≠
      Transition.run (Kms.next hashing) State.deployed
        [initCall, (callBy ownerAccount 0, .addKmsComposeHash "b"),
          (callBy ownerAccount 0, .addKmsComposeHash "a")] ∧
    ∀ ctx call,
      (exec hashing ctx (Transition.run (Kms.next hashing) State.deployed
        ([initCall, (callBy ownerAccount 0, .addKmsComposeHash "a"),
          (callBy ownerAccount 0, .addKmsComposeHash "b")] ++ [])) call).map Outcome.answer =
      (exec hashing ctx (Transition.run (Kms.next hashing) State.deployed
        ([initCall, (callBy ownerAccount 0, .addKmsComposeHash "b"),
          (callBy ownerAccount 0, .addKmsComposeHash "a")] ++ [])) call).map Outcome.answer := by
  constructor
  · simp only [Transition.run_cons, Transition.run_nil, next_initCall, next_add]
    intro hsame
    have helements := congrArg (fun s : State =>
      s.contract.map fun c => c.kmsAllowedComposeHashes.elements) hsame
    revert helements
    decide
  · refine (reordered_calls_answered_alike (Relation.EqvGen.rel _ _ ?_) State.deployed []).1
    refine Transition.Swap.swap [initCall] (Or.inr (Or.inr ⟨_, _, rfl, rfl, Or.inl ?_⟩)) []
    intro hcells
    exact absurd (Prod.mk.inj (Cell.entry.inj hcells)).2 (by decide)

end NearKms.Kms
