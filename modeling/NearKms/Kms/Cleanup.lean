import NearKms.Kms.Admission
import NearKms.Kms.View

/-!
# What an owner can do about the list of compose hashes

The list keeps strings as they were given: a string that does not convert stops every
request, and removing a hash leaves its other spellings. The list can be read, and an
owner can remove any string on it. So from every reachable state an owner restores what
the calls so far were meant to say, or revokes a hash for good.
-/

namespace NearKms.Kms

variable {deps : Externals}

/-! ## Removing what a client finds on the list -/

/-- The calls of a client that reads the list and removes every string with `p`. -/
def cleanup (ctx : Context) (p : String → Bool) (s : State) : List Label :=
  match s.contract with
  | some c => (c.getKmsAllowedComposeHashes.filter p).map fun h => (ctx, .removeKmsComposeHash h)
  | none => []

/-- The caller may remove strings: an owner, without a deposit. -/
structure MayRemove (ctx : Context) (s : State) : Prop where
  deposit : ctx.attachedDeposit = 0
  role : s.plugins.acl.hasAnyRole [Role.owner] ctx.predecessorAccountId = true

/-- The state with another list of compose hashes. -/
def State.withComposeHashes (s : State) (c : Contract) (hashes : IterableSet String) : State :=
  { s with contract := some { c with kmsAllowedComposeHashes := hashes } }

theorem next_remove {ctx : Context} {s : State} (h : MayRemove ctx s) (c : Contract)
    (hashes : IterableSet String) (x : String) :
    next deps (s.withComposeHashes c hashes) (ctx, .removeKmsComposeHash x) =
      s.withComposeHashes c (hashes.remove x) := by
  have hok : exec deps ctx (s.withComposeHashes c hashes) (.removeKmsComposeHash x) =
      .ok { state := s.withComposeHashes c (hashes.remove x), events := [.composeHashRemoved x],
            promise := none } :=
    ownerMethod_eq_ok.2 ⟨h.deposit, h.role, _, _, _, rfl, rfl, rfl⟩
  rw [next, hok]

/-- The whole clean-up: the strings with `p` are gone, and nothing else has changed. -/
theorem run_cleanup (deps : Externals) {ctx : Context} {s : State} (h : MayRemove ctx s)
    {c : Contract} (hc : s.contract = some c) (p : String → Bool) :
    ∃ hashes, (∀ x, x ∈ hashes ↔ x ∈ c.kmsAllowedComposeHashes ∧ p x = false) ∧
      Transition.run (next deps) s (cleanup ctx p s) = s.withComposeHashes c hashes := by
  have hremoves : ∀ (xs : List String) (hashes : IterableSet String),
      Transition.run (next deps) (s.withComposeHashes c hashes)
          (xs.map fun x => (ctx, .removeKmsComposeHash x)) =
        s.withComposeHashes c (xs.foldl IterableSet.remove hashes) := by
    intro xs
    induction xs with
    | nil => exact fun _ => rfl
    | cons x xs ih =>
        intro hashes
        rw [List.map_cons, Transition.run_cons, next_remove h, ih, List.foldl_cons]
  refine ⟨(c.getKmsAllowedComposeHashes.filter p).foldl IterableSet.remove
    c.kmsAllowedComposeHashes, ?_, ?_⟩
  · intro x
    rw [IterableSet.mem_foldl_remove, List.mem_filter, Contract.getKmsAllowedComposeHashes,
      ← IterableSet.mem_def]
    cases p x <;> simp
  · have hsame : s = s.withComposeHashes c c.kmsAllowedComposeHashes := by
      rw [State.withComposeHashes, ← hc]
    have hcleanup : cleanup ctx p s = (c.getKmsAllowedComposeHashes.filter p).map
        fun x => (ctx, .removeKmsComposeHash x) := by
      rw [cleanup, hc]
    rw [hcleanup]
    conv_lhs => rw [hsame]
    exact hremoves _ _

/-- A clean-up of a contract that is not initialized does nothing. -/
theorem cleanup_of_none {ctx : Context} {s : State} (hc : s.contract = none) (p : String → Bool) :
    cleanup ctx p s = [] := by
  rw [cleanup, hc]

/-! ## Strings that do not convert -/

def undecodable (h : String) : Bool :=
  (Hash32.tryFromHex h : Except HexToHashError DockerComposeHash).toOption.isNone

theorem undecodable_eq_false {h : String} : undecodable h = false ↔ Decodable h := by
  unfold undecodable Decodable
  rw [Option.isNone_eq_false_iff, Option.isSome_iff_exists]
  simp only [toOption_eq_some]

/-- A string that decodes to 32 bytes converts. -/
theorem decodable_of_decode {h : String} {b : ByteArr 32} (hdec : Hex.decode h = .ok b.toList) :
    Decodable h :=
  ⟨⟨b⟩, Hash32.tryFromHex_eq_ok.2 hdec⟩

/-- What is left on the list, and that all else stays: roles, pauses, and the other fields
of the contract. -/
theorem list_of_cleanup {ls : List Label} {ctx : Context}
    (hmay : MayRemove ctx (Transition.run (next deps) State.deployed ls)) :
    let s := Transition.run (next deps) State.deployed ls
    let s' := Transition.run (next deps) State.deployed (ls ++ cleanup ctx undecodable s)
    s'.plugins = s.plugins ∧ ∃ hashes,
      s'.contract = s.contract.map (fun c => { c with kmsAllowedComposeHashes := hashes }) ∧
      ∀ x, x ∈ hashes ↔ LastAdded deps .composeHashes x ls ∧ Decodable x := by
  intro s s'
  have hlisted : ∀ x, Listed .composeHashes x s ↔ LastAdded deps .composeHashes x ls :=
    fun x => listed_iff_lastAdded .composeHashes x ls
  cases hc : s.contract with
  | none =>
      have hsame : s' = s := by
        show Transition.run _ _ (ls ++ cleanup ctx undecodable s) = s
        rw [cleanup_of_none hc, List.append_nil]
      refine ⟨by rw [hsame], .new, ?_, ?_⟩
      · rw [hsame, hc]
        rfl
      · intro x
        rw [← hlisted, Listed, hc]
        simp
  | some c =>
      rcases run_cleanup deps hmay hc undecodable with ⟨hashes, hmem, hrun⟩
      have hs' : s' = s.withComposeHashes c hashes :=
        (Transition.run_append (next deps) State.deployed ls _).trans hrun
      refine ⟨by rw [hs']; rfl, hashes, by rw [hs']; rfl, ?_⟩
      intro x
      rw [hmem, undecodable_eq_false, ← hlisted, listed_iff hc]
      rfl

/-- From every reachable state, whatever strings were added: after an owner has removed
those that do not convert, the list holds the others as before, and all else is as it
was, roles and pauses included. And a request is served exactly if it presents an
attestation that the verifier accepts and some spelling of the worker's compose file was
added and not removed since. -/
theorem owner_repairs_list {ls : List Label} {ctx : Context}
    (hmay : MayRemove ctx (Transition.run (next deps) State.deployed ls)) :
    let s := Transition.run (next deps) State.deployed ls
    let s' := Transition.run (next deps) State.deployed (ls ++ cleanup ctx undecodable s)
    (s'.plugins = s.plugins ∧ ∃ hashes,
        s'.contract = s.contract.map (fun c => { c with kmsAllowedComposeHashes := hashes }) ∧
        ∀ x, x ∈ hashes ↔ LastAdded deps .composeHashes x ls ∧ Decodable x) ∧
      ∀ ctx' req, Issues deps ctx' s' req ↔ ∃ a b, Presents deps ctx' s req a ∧
        dockerComposeHash deps a = some b ∧ ApprovedBy deps b ls := by
  intro s s'
  have hlist : s'.plugins = s.plugins ∧ ∃ hashes,
      s'.contract = s.contract.map (fun c => { c with kmsAllowedComposeHashes := hashes }) ∧
      ∀ x, x ∈ hashes ↔ LastAdded deps .composeHashes x ls ∧ Decodable x := list_of_cleanup hmay
  refine ⟨hlist, ?_⟩
  rcases hlist with ⟨hplugins, hashes, hcontract, hmem⟩
  intro ctx' req
  rw [issues_iff, hplugins, hcontract]
  constructor
  · rintro ⟨c', a, v, r, b, hc', hpaused, hdeposit, hsub, hatt, -, hb, x, hx, hdec⟩
    rcases Option.map_eq_some_iff.1 hc' with ⟨c, -, rfl⟩
    exact ⟨a, b, ⟨hpaused, hdeposit, hsub, v, r, hatt⟩, hb, x, hdec, ((hmem x).1 hx).1⟩
  · rintro ⟨a, b, ⟨hpaused, hdeposit, hsub, v, r, hatt⟩, hb, happ⟩
    rcases happ.contract with ⟨c, hc⟩
    have hc' : s.contract = some c := hc
    rcases happ with ⟨x, hdec, hlast⟩
    refine ⟨_, a, v, r, b, by rw [hc']; rfl, hpaused, hdeposit, hsub, hatt, ?_, hb, x, ?_, hdec⟩
    · exact fun y hy => ((hmem y).1 hy).2
    · -- a spelling of 32 bytes converts, so it was not removed
      exact (hmem x).2 ⟨hlast, decodable_of_decode hdec⟩

/-- The list of the sample after the owner has added a string that does not convert. -/
def brickedRun : List Label :=
  approvalRun kmsDockerHash ++ [(callBy ownerAccount 0, .addKmsComposeHash "")]

theorem run_brickedRun : Transition.run (next deps) State.deployed brickedRun =
    stateWith ((IterableSet.new.insert kmsDockerHash).insert "") := by
  rw [brickedRun, Transition.run_append, run_approvalRun, Transition.run_cons, next_add]
  rfl

/-- The owner of the sample repairs the list: roles and pauses are as before, the approval
is still there, and the worker is served. -/
theorem owner_repairs_list_kmsWorker :
    let s := Transition.run (next (externalsFor kmsWorker)) State.deployed brickedRun
    let s' := Transition.run (next (externalsFor kmsWorker)) State.deployed
      (brickedRun ++ cleanup (callBy ownerAccount 0) undecodable s)
    s'.plugins = s.plugins ∧
      Issues (externalsFor kmsWorker) (callBy ownerAccount 1) s' (submission kmsWorker) := by
  have hmay : MayRemove (callBy ownerAccount 0)
      (Transition.run (next (externalsFor kmsWorker)) State.deployed brickedRun) := by
    rw [run_brickedRun]
    exact ⟨rfl, owner_hasRole _⟩
  rcases owner_repairs_list hmay with ⟨⟨hplugins, -⟩, hserved⟩
  refine ⟨hplugins, (hserved (callBy ownerAccount 1) (submission kmsWorker)).2
    ⟨_, _, ⟨?_, rfl, submitted_submission kmsWorker, attested_kmsWorker⟩,
      dockerComposeHash_kmsWorker, kmsDockerHash, decode_kmsDockerHash, ?_⟩⟩
  · rw [run_brickedRun]
    constructor <;> simp [stateWith]
  · rw [← listed_iff_lastAdded, run_brickedRun]
    exact ⟨_, rfl, by simp [AllowList.entries]⟩

/-! ## All spellings of a hash -/

def spells (b : ByteArr 32) (h : String) : Bool := (Hex.decode h).toOption == some b.toList

theorem spells_eq_true {b : ByteArr 32} {h : String} :
    spells b h = true ↔ Hex.decode h = .ok b.toList := by
  rw [spells, beq_iff_eq, toOption_eq_some]

/-- Right after the clean-up the hash is not approved. -/
theorem not_approves_cleanup (deps : Externals) {s : State} {ctx : Context} (b : ByteArr 32)
    (hmay : MayRemove ctx s) :
    Holds (fun c => ¬ Approves c b)
      (Transition.run (next deps) s (cleanup ctx (spells b) s)) := by
  cases hc : s.contract with
  | none =>
      rw [cleanup_of_none hc, Transition.run_nil]
      intro c hc'
      rw [hc] at hc'
      cases hc'
  | some c =>
      rcases run_cleanup deps hmay hc (spells b) with ⟨hashes, hmem, hrun⟩
      rw [hrun]
      rintro c' hc' ⟨x, hx, hdec⟩
      obtain rfl := Option.some.inj hc'
      have hkept : spells b x = false := ((hmem x).1 hx).2
      rw [spells_eq_true.2 hdec] at hkept
      cases hkept

/-- Another hash is approved as before, and whether the list converts stays the same. -/
theorem issues_cleanup_iff {s : State} {ctx ctx' : Context} {b b' : ByteArr 32}
    (hmay : MayRemove ctx s) {req : Request} {a : DstackAttestation} (hsub : Submitted deps req a)
    (hb : dockerComposeHash deps a = some b') (hne : b' ≠ b) :
    Issues deps ctx' (Transition.run (next deps) s (cleanup ctx (spells b) s)) req ↔
      Issues deps ctx' s req := by
  cases hc : s.contract with
  | none => rw [cleanup_of_none hc, Transition.run_nil]
  | some c =>
      rcases run_cleanup deps hmay hc (spells b) with ⟨hashes, hmem, hrun⟩
      have husable : Usable { c with kmsAllowedComposeHashes := hashes } ↔ Usable c := by
        constructor
        · intro hu x hx
          by_cases hspells : spells b x = true
          · exact decodable_of_decode (spells_eq_true.1 hspells)
          · exact hu x ((hmem x).2 ⟨hx, Bool.not_eq_true _ ▸ hspells⟩)
        · intro hu x hx
          exact hu x ((hmem x).1 hx).1
      have happroves : Approves { c with kmsAllowedComposeHashes := hashes } b' ↔
          Approves c b' := by
        constructor
        · rintro ⟨x, hx, hdec⟩
          exact ⟨x, ((hmem x).1 hx).1, hdec⟩
        · rintro ⟨x, hx, hdec⟩
          refine ⟨x, (hmem x).2 ⟨hx, ?_⟩, hdec⟩
          rw [← Bool.not_eq_true, spells_eq_true, hdec]
          intro heq
          exact hne (Vector.toList_inj.1 (Except.ok.inj heq))
      have hhash : ∀ a'' b'', Submitted deps req a'' → dockerComposeHash deps a'' = some b'' →
          b'' = b' := by
        intro a'' b'' hsub'' hb''
        rw [hsub''.unique hsub, hb] at hb''
        exact (Option.some.inj hb'').symm
      rw [hrun, issues_iff, issues_iff]
      constructor
      · rintro ⟨c', a'', v, r, b'', hc', hpaused, hdeposit, hsub'', hatt, hu, hb'', happ⟩
        obtain rfl := Option.some.inj hc'
        obtain rfl := hhash a'' b'' hsub'' hb''
        exact ⟨c, a'', v, r, _, hc, hpaused, hdeposit, hsub'', hatt, husable.1 hu, hb'',
          happroves.1 happ⟩
      · rintro ⟨c', a'', v, r, b'', hc', hpaused, hdeposit, hsub'', hatt, hu, hb'', happ⟩
        obtain rfl : c = c' := Option.some.inj (hc.symm.trans hc')
        obtain rfl := hhash a'' b'' hsub'' hb''
        exact ⟨_, a'', v, r, _, rfl, hpaused, hdeposit, hsub'', hatt, husable.2 hu, hb'',
          happroves.2 happ⟩

/-- From every reachable state: after an owner has removed all spellings of a hash, no
request for it is served, whatever is called, until a spelling of it is added; and
requests for another hash are served as before. -/
theorem owner_revokes {ls : List Label} {ctx : Context} (b : ByteArr 32)
    (hmay : MayRemove ctx (Transition.run (next deps) State.deployed ls)) {req : Request}
    {a : DstackAttestation} {b' : ByteArr 32} (hsub : Submitted deps req a)
    (hb : dockerComposeHash deps a = some b') (ctx' : Context) :
    (b' = b → ∀ ms, Transition.AllSteps (next deps) (fun s l => ¬ Readds deps b s l)
        (Transition.run (next deps) State.deployed
          (ls ++ cleanup ctx (spells b) (Transition.run (next deps) State.deployed ls))) ms →
        ¬ Issues deps ctx' (Transition.run (next deps) State.deployed
          (ls ++ cleanup ctx (spells b) (Transition.run (next deps) State.deployed ls) ++ ms)) req) ∧
      (b' ≠ b → (Issues deps ctx' (Transition.run (next deps) State.deployed
          (ls ++ cleanup ctx (spells b) (Transition.run (next deps) State.deployed ls))) req ↔
        Issues deps ctx' (Transition.run (next deps) State.deployed ls) req)) := by
  constructor
  · rintro rfl ms hms
    have hbase := not_approves_cleanup deps b' hmay
    rw [← Transition.run_append] at hbase
    -- from there on nothing approves the hash again
    have hend := Transition.run_invariant_of_steps (fun s l => not_approves_next) hms hbase
    rw [← Transition.run_append] at hend
    exact not_issues_of_not_approves hend hsub hb
  · intro hne
    rw [Transition.run_append]
    exact issues_cleanup_iff hmay hsub hb hne

/-- Two spellings of one hash on the list of the sample. -/
def twoSpellingsRun : List Label :=
  approvalRun kmsDockerHash ++ [(callBy ownerAccount 0, .addKmsComposeHash kmsDockerHashUpper)]

theorem run_twoSpellingsRun : Transition.run (next deps) State.deployed twoSpellingsRun =
    stateWith ((IterableSet.new.insert kmsDockerHash).insert kmsDockerHashUpper) := by
  rw [twoSpellingsRun, Transition.run_append, run_approvalRun, Transition.run_cons, next_add]
  rfl

/-- The owner of the sample removes both, and the worker is not served. -/
theorem owner_revokes_kmsWorker :
    ¬ Issues (externalsFor kmsWorker) (callBy ownerAccount 1)
      (Transition.run (next (externalsFor kmsWorker)) State.deployed
        (twoSpellingsRun ++ cleanup (callBy ownerAccount 0)
          (spells (Digest.sha256 (Utf8.asBytes kmsDockerCompose)))
          (Transition.run (next (externalsFor kmsWorker)) State.deployed twoSpellingsRun) ++ []))
      (submission kmsWorker) := by
  have hmay : MayRemove (callBy ownerAccount 0)
      (Transition.run (next (externalsFor kmsWorker)) State.deployed twoSpellingsRun) := by
    rw [run_twoSpellingsRun]
    exact ⟨rfl, owner_hasRole _⟩
  exact (owner_revokes _ hmay (submitted_submission kmsWorker) dockerComposeHash_kmsWorker
    (callBy ownerAccount 1)).1 rfl [] trivial

end NearKms.Kms
