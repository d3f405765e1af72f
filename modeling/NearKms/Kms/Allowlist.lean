import NearKms.Kms.Administration
import NearKms.Kms.RootKey

/-!
# The list of compose hashes over a run

The list stores strings as they were given, the root key method compares the
bytes they decode to. Two questions about every run: whether removing a hash
revokes it, and whether the list always converts.
-/

namespace NearKms.Kms

variable {deps : Externals}

theorem mem_effect_composeHashes {call : Call} {c : Contract} {x : String} :
    x ∈ (call.effect c).kmsAllowedComposeHashes ↔
      (x ∈ c.kmsAllowedComposeHashes ∧ call ≠ .removeKmsComposeHash x) ∨
        call = .addKmsComposeHash x :=
  @AllowList.mem_entries_effect .composeHashes call c x

theorem usable_new (mpcContractId : AccountId) (mpcDomainId : UInt64) :
    Usable (Contract.new mpcContractId mpcDomainId) := by
  intro s hs
  exact absurd hs IterableSet.notMem_new

theorem not_approves_new (mpcContractId : AccountId) (mpcDomainId : UInt64) (b : ByteArr 32) :
    ¬ Approves (Contract.new mpcContractId mpcDomainId) b := by
  intro h
  rcases h with ⟨s, hs, -⟩
  exact IterableSet.notMem_new hs

/-! ## Revocation -/

/-- The step approves `b`, in whatever spelling. -/
def Readds (deps : Externals) (b : ByteArr 32) (s : State) (l : Label) : Prop :=
  Succeeds deps s l ∧ ∃ h, l.2 = .addKmsComposeHash h ∧ Hex.decode h = .ok b.toList

/-- No string on the list other than `h` decodes to `b`. -/
def OnlySpelling (c : Contract) (h : String) (b : ByteArr 32) : Prop :=
  ∀ x, x ∈ c.kmsAllowedComposeHashes → Hex.decode x = .ok b.toList → x = h

/-- Without a new approval, a hash that is not approved stays so. -/
theorem not_approves_next {b : ByteArr 32} {s : State} {l : Label} (hl : ¬ Readds deps b s l)
    (hs : Holds (fun c => ¬ Approves c b) s) :
    Holds (fun c => ¬ Approves c b) (next deps s l) := by
  apply holds_next (fun mpc domain => not_approves_new mpc domain b) _ hs
  rintro c - hsucc hnot ⟨x, hx, hdec⟩
  rcases mem_effect_composeHashes.1 hx with ⟨hmem, -⟩ | hadd
  · exact hnot ⟨x, hmem, hdec⟩
  · exact hl ⟨hsucc, x, hadd, hdec⟩

/-- Removing `h` takes `b` off the list exactly when `h` was its only spelling. -/
theorem approves_remove_iff {c : Contract} {h : String} {b : ByteArr 32} :
    ¬ Approves (Call.effect (.removeKmsComposeHash h) c) b ↔ OnlySpelling c h b := by
  constructor
  · intro hnot x hx hdec
    by_contra hne
    have hmem : x ∈ (Call.effect (.removeKmsComposeHash h) c).kmsAllowedComposeHashes :=
      IterableSet.mem_remove.2 ⟨hx, hne⟩
    exact hnot ⟨x, hmem, hdec⟩
  · rintro honly ⟨x, hx, hdec⟩
    rcases IterableSet.mem_remove.1 hx with ⟨hmem, hne⟩
    exact hne (honly x hmem hdec)

/-- A request for a docker compose file whose hash is not approved is not issued. -/
theorem not_issues_of_not_approves {ctx : Context} {s : State} {req : Request}
    {a : DstackAttestation} {b : ByteArr 32} (hs : Holds (fun c => ¬ Approves c b) s)
    (hsub : Submitted deps req a) (hb : dockerComposeHash deps a = some b) :
    ¬ Issues deps ctx s req := by
  intro hissues
  rcases issues_iff.1 hissues with ⟨c, a', -, -, b', hc, -, -, hsub', -, -, hb', happ⟩
  rw [hsub'.unique hsub, hb] at hb'
  rw [← Option.some.inj hb'] at happ
  exact hs c hc happ

/-- While another spelling of `b` is on the list, removing `h` makes no difference
to requests for `b`. -/
theorem issues_remove_iff {s : State} {ctx ctx' : Context} {h : String} {b : ByteArr 32}
    {c : Contract} {req : Request} {a : DstackAttestation} (hc : s.contract = some c)
    (hsucc : Succeeds deps s (ctx, .removeKmsComposeHash h)) (hdec : Hex.decode h = .ok b.toList)
    (hother : ¬ OnlySpelling c h b) (hsub : Submitted deps req a)
    (hb : dockerComposeHash deps a = some b) :
    Issues deps ctx' (next deps s (ctx, .removeKmsComposeHash h)) req ↔ Issues deps ctx' s req := by
  rw [next_of_succeeds hsucc hc (by simp)]
  have happ : Approves (Call.effect (.removeKmsComposeHash h) c) b :=
    not_not.1 fun hnot => hother (approves_remove_iff.1 hnot)
  -- `h` itself converts, so the removal does not change whether the list does
  have husable : Usable (Call.effect (.removeKmsComposeHash h) c) ↔ Usable c := by
    constructor
    · intro hu x hx
      by_cases hxh : x = h
      · rw [hxh]
        exact ⟨⟨b⟩, Hash32.tryFromHex_eq_ok.2 hdec⟩
      · exact hu x (IterableSet.mem_remove.2 ⟨hx, hxh⟩)
    · intro hu x hx
      exact hu x (IterableSet.mem_remove.1 hx).1
  have happ' : Approves c b := by
    rcases happ with ⟨x, hx, hxdec⟩
    exact ⟨x, (IterableSet.mem_remove.1 hx).1, hxdec⟩
  have hunique : ∀ a' b', Submitted deps req a' → dockerComposeHash deps a' = some b' → b' = b := by
    intro a' b' hsub' hb'
    rw [hsub'.unique hsub, hb] at hb'
    exact (Option.some.inj hb').symm
  rw [issues_iff, issues_iff]
  constructor
  · rintro ⟨c', a', v, r, b', hc', hpaused, hdeposit, hsub', hatt, hu, hb', -⟩
    rw [← Option.some.inj hc'] at hu
    refine ⟨c, a', v, r, b', hc, hpaused, hdeposit, hsub', hatt, husable.1 hu, hb', ?_⟩
    rw [hunique a' b' hsub' hb']
    exact happ'
  · rintro ⟨c', a', v, r, b', hc', hpaused, hdeposit, hsub', hatt, hu, hb', -⟩
    rw [← Option.some.inj (hc.symm.trans hc')] at hu
    refine ⟨_, a', v, r, b', rfl, hpaused, hdeposit, hsub', hatt, husable.2 hu, hb', ?_⟩
    rw [hunique a' b' hsub' hb']
    exact happ

/-- In every run: where `h` is the only spelling of `b` on the list, a successful
removal of `h` revokes `b`, and no request for it is issued until a spelling of it
is added again; where another spelling is on the list, the removal makes no
difference to any request for `b`. -/
theorem removal_revokes_iff {before : List Label} {ctx : Context} {h : String}
    {b : ByteArr 32} {c : Contract}
    (hc : (Transition.run (next deps) State.deployed before).contract = some c)
    (hsucc : Succeeds deps (Transition.run (next deps) State.deployed before)
      (ctx, .removeKmsComposeHash h))
    (hdec : Hex.decode h = .ok b.toList) :
    (OnlySpelling c h b → ∀ after,
        Transition.AllSteps (next deps) (fun s l => ¬ Readds deps b s l)
          (Transition.run (next deps) State.deployed (before ++ [(ctx, .removeKmsComposeHash h)]))
          after →
        ∀ ctx' req a, Submitted deps req a → dockerComposeHash deps a = some b →
          ¬ Issues deps ctx' (Transition.run (next deps) State.deployed
            (before ++ [(ctx, .removeKmsComposeHash h)] ++ after)) req) ∧
      (¬ OnlySpelling c h b →
        ∀ ctx' req a, Submitted deps req a → dockerComposeHash deps a = some b →
          (Issues deps ctx' (Transition.run (next deps) State.deployed
              (before ++ [(ctx, .removeKmsComposeHash h)])) req ↔
            Issues deps ctx' (Transition.run (next deps) State.deployed before) req)) := by
  constructor
  · intro honly after hafter ctx' req a hsub hb
    have hbase : Holds (fun c => ¬ Approves c b) (Transition.run (next deps) State.deployed
        (before ++ [(ctx, .removeKmsComposeHash h)])) := by
      rw [Transition.run_append, Transition.run_cons, Transition.run_nil,
        next_of_succeeds hsucc hc (by simp)]
      intro c' hc'
      rw [← Option.some.inj hc']
      exact approves_remove_iff.2 honly
    -- from there on nothing approves `b` again
    have hend := Transition.run_invariant_of_steps (fun s l => not_approves_next) hafter hbase
    rw [← Transition.run_append] at hend
    exact not_issues_of_not_approves hend hsub hb
  · intro hother ctx' req a hsub hb
    rw [Transition.run_append]
    exact issues_remove_iff hc hsucc hdec hother hsub hb

/-- Removing the string that was added stops the worker it was added for. -/
theorem removal_revokes_kmsWorker :
    ¬ Issues (externalsFor kmsWorker) (callBy ownerAccount 1)
      (Transition.run (next (externalsFor kmsWorker)) State.deployed
        (approvalRun kmsDockerHash ++
          [(callBy ownerAccount 0, .removeKmsComposeHash kmsDockerHash)] ++ []))
      (submission kmsWorker) := by
  have hstate : Transition.run (next (externalsFor kmsWorker)) State.deployed
      (approvalRun kmsDockerHash) = stateWith (IterableSet.new.insert kmsDockerHash) :=
    run_approvalRun kmsDockerHash
  have hsucc : Succeeds (externalsFor kmsWorker)
      (Transition.run (next (externalsFor kmsWorker)) State.deployed (approvalRun kmsDockerHash))
      (callBy ownerAccount 0, .removeKmsComposeHash kmsDockerHash) := by
    rw [hstate]
    exact ⟨_, exec_remove _ kmsDockerHash⟩
  refine (removal_revokes_iff (congrArg State.contract hstate) hsucc decode_kmsDockerHash).1 ?_ []
    trivial (callBy ownerAccount 1) _ _ (submitted_submission kmsWorker)
    dockerComposeHash_kmsWorker
  intro x hx _
  simpa [stateWith] using hx

/-- The same hash in capital letters. -/
def kmsDockerHashUpper : String :=
  "B3AC1B42F0BDCBE30F9610526CDAADD314A110E5838A1A169272B3CCFEBE4DC1"

theorem decode_kmsDockerHashUpper :
    Hex.decode kmsDockerHashUpper =
      .ok (Digest.sha256 (Utf8.asBytes kmsDockerCompose)).toList := by
  decide +kernel

theorem decodable_kmsDockerHashUpper : Decodable kmsDockerHashUpper :=
  ⟨⟨Digest.sha256 (Utf8.asBytes kmsDockerCompose)⟩,
    Hash32.tryFromHex_eq_ok.2 decode_kmsDockerHashUpper⟩

/-- The owner adds a hash in capital letters and removes it in small ones: the
worker it stands for is still served. -/
theorem removed_hash_still_served :
    Succeeds (externalsFor kmsWorker)
        (Transition.run (next (externalsFor kmsWorker)) State.deployed
          (approvalRun kmsDockerHashUpper))
        (callBy ownerAccount 0, .removeKmsComposeHash kmsDockerHash) ∧
      Hex.decode kmsDockerHash = .ok (Digest.sha256 (Utf8.asBytes kmsDockerCompose)).toList ∧
      (∃ a, Submitted (externalsFor kmsWorker) (submission kmsWorker) a ∧
        dockerComposeHash (externalsFor kmsWorker) a =
          some (Digest.sha256 (Utf8.asBytes kmsDockerCompose))) ∧
      Issues (externalsFor kmsWorker) (callBy ownerAccount 1)
        (Transition.run (next (externalsFor kmsWorker)) State.deployed
          (approvalRun kmsDockerHashUpper ++
            [(callBy ownerAccount 0, .removeKmsComposeHash kmsDockerHash)]))
        (submission kmsWorker) := by
  rw [Transition.run_append, run_approvalRun, Transition.run_cons, Transition.run_nil, next,
    exec_remove]
  refine ⟨⟨_, exec_remove _ _⟩, decode_kmsDockerHash,
    ⟨_, submitted_submission kmsWorker, dockerComposeHash_kmsWorker⟩, ?_⟩
  have hne : kmsDockerHashUpper ≠ kmsDockerHash := by decide
  refine issues_kmsWorker ?_ ⟨kmsDockerHashUpper, by simp [hne], decode_kmsDockerHashUpper⟩
  intro x hx
  rw [IterableSet.mem_remove, IterableSet.mem_insert] at hx
  rcases hx with ⟨hnew | rfl, -⟩
  · exact absurd hnew IterableSet.notMem_new
  · exact decodable_kmsDockerHashUpper

/-! ## The conversion -/

/-- The step adds only strings that convert. -/
def AddsDecodable (deps : Externals) (s : State) (l : Label) : Prop :=
  ∀ h, l.2 = .addKmsComposeHash h → Succeeds deps s l → Decodable h

/-- On a list that converts, a step keeps it so exactly if what it adds converts. -/
theorem usable_next_iff {s : State} {l : Label} (hs : Holds Usable s) :
    Holds Usable (next deps s l) ↔ AddsDecodable deps s l := by
  constructor
  · -- the added string is on the list, and the list converts
    rintro hnext h hl ⟨out, hout⟩
    rcases l with ⟨ctx, call⟩
    obtain rfl : call = .addKmsComposeHash h := hl
    rcases ownerMethod_eq_ok.1 hout with ⟨-, -, c, -, -, hc, -, -⟩
    rw [next_of_succeeds ⟨out, hout⟩ hc (by simp)] at hnext
    exact hnext _ rfl h (mem_effect_composeHashes.2 (Or.inr rfl))
  · intro hadds
    apply holds_next usable_new _ hs
    intro c _ hsucc hu x hx
    rcases mem_effect_composeHashes.1 hx with ⟨hmem, -⟩ | hadd
    · exact hu x hmem
    · exact hadds x hadd hsucc

/-- After a string is added, a request that was served before is still served
exactly if the string converts. -/
theorem issues_add_iff {s : State} {ctx ctx' : Context} {h : String} {req : Request}
    (hsucc : Succeeds deps s (ctx, .addKmsComposeHash h)) (hbefore : Issues deps ctx' s req) :
    Issues deps ctx' (next deps s (ctx, .addKmsComposeHash h)) req ↔ Decodable h := by
  rcases issues_iff.1 hbefore with ⟨c, a, v, r, b, hc, hpaused, hdeposit, hsub, hatt, hu, hb, happ⟩
  rw [next_of_succeeds hsucc hc (by simp), issues_iff]
  constructor
  · rintro ⟨c', -, -, -, -, hc', -, -, -, -, hu', -, -⟩
    rw [← Option.some.inj hc'] at hu'
    exact hu' h (IterableSet.mem_insert.2 (Or.inr rfl))
  · intro hdec
    refine ⟨_, a, v, r, b, rfl, hpaused, hdeposit, hsub, hatt, ?_, hb, ?_⟩
    · intro x hx
      rcases IterableSet.mem_insert.1 hx with hmem | rfl
      · exact hu x hmem
      · exact hdec
    · rcases happ with ⟨x, hx, hxdec⟩
      exact ⟨x, IterableSet.mem_insert.2 (Or.inl hx), hxdec⟩

/-- The list converts throughout a run exactly if every string that is added
decodes to 32 bytes; the conversion panics exactly on a list that does not
convert; and a new approval keeps a request served exactly if its string decodes. -/
theorem allowlist_usable_iff (ls : List Label) :
    ((∀ pre, pre <+: ls → Holds Usable (Transition.run (next deps) State.deployed pre)) ↔
        Transition.AllSteps (next deps) (AddsDecodable deps) State.deployed ls) ∧
      (∀ c, (∃ hashes, allowedDockerComposeHashes c = .ok hashes) ↔ Usable c) ∧
      ∀ s ctx ctx' h req, Succeeds deps s (ctx, .addKmsComposeHash h) → Issues deps ctx' s req →
        (Issues deps ctx' (next deps s (ctx, .addKmsComposeHash h)) req ↔ Decodable h) := by
  refine ⟨?_, fun c => exists_allowedDockerComposeHashes_iff, ?_⟩
  · exact Transition.forall_prefix_iff_allSteps (fun s l => usable_next_iff)
      (holds_deployed Usable) ls
  · intro s ctx ctx' h req hsucc hbefore
    exact issues_add_iff hsucc hbefore

/-- The owner may add any string to the list of the sample. -/
theorem succeeds_add (hashes : IterableSet String) (h : String) :
    Succeeds (externalsFor kmsWorker) (stateWith hashes)
      (callBy ownerAccount 0, .addKmsComposeHash h) :=
  ⟨_, ownerMethod_eq_ok.2 ⟨rfl, owner_hasRole _, _, _, _, rfl, rfl, rfl⟩⟩

/-- After the approval of one hash the list converts, and the worker it was approved
for is still served when another spelling of it is approved. -/
theorem allowlist_usable_approvalRun :
    Holds Usable (Transition.run (next (externalsFor kmsWorker)) State.deployed
        (approvalRun kmsDockerHash)) ∧
      Issues (externalsFor kmsWorker) (callBy ownerAccount 1)
        (next (externalsFor kmsWorker) (stateWith (IterableSet.new.insert kmsDockerHash))
          (callBy ownerAccount 0, .addKmsComposeHash kmsDockerHashUpper))
        (submission kmsWorker) := by
  constructor
  · refine (allowlist_usable_iff (approvalRun kmsDockerHash)).1.2 ⟨?_, ?_, trivial⟩ _
      (List.prefix_refl _)
    · intro h hl
      cases hl
    · intro h hl _
      obtain rfl : kmsDockerHash = h := Call.addKmsComposeHash.inj hl
      exact decodable_kmsDockerHash
  · have hsucc := succeeds_add (IterableSet.new.insert kmsDockerHash) kmsDockerHashUpper
    exact ((allowlist_usable_iff []).2.2 _ _ _ _ _ hsucc issues_kmsWorker_approved).2
      decodable_kmsDockerHashUpper

/-- The owner adds the empty string: the list no longer converts, and a worker that
was served is served no more. -/
theorem empty_hash_blocks_requests :
    Reachable (externalsFor kmsWorker) (stateWith (IterableSet.new.insert kmsDockerHash)) ∧
      Issues (externalsFor kmsWorker) (callBy ownerAccount 1)
        (stateWith (IterableSet.new.insert kmsDockerHash)) (submission kmsWorker) ∧
      Succeeds (externalsFor kmsWorker) (stateWith (IterableSet.new.insert kmsDockerHash))
        (callBy ownerAccount 0, .addKmsComposeHash "") ∧
      ¬ Issues (externalsFor kmsWorker) (callBy ownerAccount 1)
        (next (externalsFor kmsWorker) (stateWith (IterableSet.new.insert kmsDockerHash))
          (callBy ownerAccount 0, .addKmsComposeHash "")) (submission kmsWorker) := by
  have hsucc : Succeeds (externalsFor kmsWorker)
      (stateWith (IterableSet.new.insert kmsDockerHash))
      (callBy ownerAccount 0, .addKmsComposeHash "") := succeeds_add _ ""
  refine ⟨reachable_insert kmsDockerHash reachable_empty, issues_kmsWorker_approved, hsucc, ?_⟩
  intro hissues
  have hempty : ¬ Decodable "" := by
    intro h
    rcases h with ⟨hash, hhash⟩
    have hdec := congrArg (fun x => x.toOption.map List.length) (Hash32.tryFromHex_eq_ok.1 hhash)
    simp [Except.toOption] at hdec
    revert hdec
    decide
  exact hempty ((issues_add_iff hsucc issues_kmsWorker_approved).1 hissues)

end NearKms.Kms
