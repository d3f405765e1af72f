import NearKms.App.Administration
import NearKms.Registration.Deposits

/-!
# The factory and the app it creates

`register_app` and the app's `new` are compiled separately and meet in a JSON object.
The receiver reads what the sender wrote, field by field, and the app starts in the
state that was asked for.
-/

namespace NearKms

variable {ch : Chain}

open Kms (RegisterAppArgs)

/-! ## The initialization arguments -/

/-- What the app is to be initialized with. -/
def newArgsOf (args : RegisterAppArgs) (kmsId : AccountId) : App.NewArgs where
  ownerId := args.ownerId
  disableUpgrades := args.disableUpgrades
  allowAnyDevice := args.allowAnyDevice
  initialDeviceId := args.initialDeviceId
  initialComposeHash := args.initialComposeHash
  kmsContractId := some kmsId

/-- The account names among the arguments: every account name can be parsed again. -/
structure NamesParse (deps : Externals) (args : RegisterAppArgs) (kmsId : AccountId) : Prop where
  ownerId : deps.parseAccountId args.ownerId.asStr = some args.ownerId
  kmsId : deps.parseAccountId kmsId.asStr = some kmsId

/-- An optional string is read back as it was written. -/
theorem optionalStr_optionalString {v : Json} {key : String} {value : Option String}
    (h : v.get key = some (Kms.optionalString value)) : App.optionalStr v key = some value := by
  rw [App.optionalStr, h]
  cases value <;> rfl

/-- The object that the factory writes is read as the arguments it was written from. -/
theorem ofJson_initArgs {deps : Externals} {ctx : Context} {args : RegisterAppArgs}
    (h : NamesParse deps args ctx.currentAccountId) :
    App.NewArgs.ofJson deps (Kms.initArgs ctx args) =
      some (newArgsOf args ctx.currentAccountId) := by
  -- one member after the other, as it was written
  have hdevice : App.optionalStr (Kms.initArgs ctx args) "initial_device_id" =
      some args.initialDeviceId := optionalStr_optionalString rfl
  have hcompose : App.optionalStr (Kms.initArgs ctx args) "initial_compose_hash" =
      some args.initialComposeHash := optionalStr_optionalString rfl
  have hkms : App.optionalStr (Kms.initArgs ctx args) "kms_contract_id" =
      some (some ctx.currentAccountId.asStr) := rfl
  have howner : ((Kms.initArgs ctx args).get "owner_id").bind Json.asStr =
      some args.ownerId.asStr := rfl
  have hdisable : ((Kms.initArgs ctx args).get "disable_upgrades").bind Json.asBool =
      some args.disableUpgrades := rfl
  have hany : ((Kms.initArgs ctx args).get "allow_any_device").bind Json.asBool =
      some args.allowAnyDevice := rfl
  unfold App.NewArgs.ofJson
  rw [howner, hdisable, hany, hdevice, hcompose, hkms]
  simp only [Option.bind_some, Option.bind_eq_bind, h.ownerId, h.kmsId, Option.map_some]
  rfl

/-! ## The app -/

/-- An initial string is present and empty. -/
def EmptyInitial (args : RegisterAppArgs) : Prop :=
  args.initialDeviceId = some "" ∨ args.initialComposeHash = some ""

/-- The account of the app, as it was asked for. -/
def appOf (ch : Chain) (args : RegisterAppArgs) (kmsId : AccountId) : App.State ch.up where
  code := ch.appCode
  contract := some (newArgsOf args kmsId).contract
  plugins := ⟨⟨[args.ownerId], [(App.Role.owner, args.ownerId)]⟩, []⟩
  upgrades := ch.freshUpgrades
  deployments := []

namespace World

/-- `new` on the created account, with arguments that name an owner: it fails exactly
on an empty initial string. -/
theorem new_freshApp {ctx : Context} {args : RegisterAppArgs} {kmsId : AccountId}
    (hdeposit : ctx.attachedDeposit = 0) (howner : args.ownerId.asStr ≠ "") :
    (EmptyInitial args → ∀ out : App.Outcome ch.up,
        App.new ctx freshApp (newArgsOf args kmsId) ≠ .ok out) ∧
      (¬ EmptyInitial args → App.new ctx (freshApp : App.State ch.up) (newArgsOf args kmsId) =
        .ok { state := appOf ch args kmsId, events := (newArgsOf args kmsId).emitted }) := by
  constructor
  · rintro hempty out hout
    rcases App.new_eq_ok.1 hout with ⟨-, -, -, hdevice, hcompose, -⟩
    rcases hempty with h | h
    · exact hdevice h
    · exact hcompose h
  · intro hnot
    rw [EmptyInitial, not_or] at hnot
    exact App.new_eq_ok.2 ⟨hdeposit, rfl, howner, hnot.1, hnot.2, rfl⟩

/-- The batch initializes the account from the decoded arguments. -/
theorem initApp_of_args {w : World ch} {deployment : Kms.Deployment} {args : RegisterAppArgs}
    {kmsId : AccountId}
    (hargs : App.NewArgs.ofJson ch.deps deployment.args = some (newArgsOf args kmsId))
    (hdeposit : deployment.attachedDeposit = 0) (howner : args.ownerId.asStr ≠ "") :
    (EmptyInitial args → w.initApp deployment = none) ∧
      (¬ EmptyInitial args → w.initApp deployment = some (appOf ch args kmsId)) := by
  unfold initApp
  rw [hargs]
  simp only [Option.bind_eq_bind, Option.bind_some]
  constructor
  · intro hempty
    rw [Option.bind_eq_none_iff]
    intro out hout
    exact absurd (Kms.toOption_eq_some.1 hout) ((new_freshApp hdeposit howner).1 hempty out)
  · intro hnot
    rw [(new_freshApp hdeposit howner).2 hnot]
    rfl

theorem elements_initialSet (initial : Option String) :
    (App.initialSet initial).elements = initial.toList := by
  cases initial <;> rfl

/-- The object that `register_app` builds is decoded by the app's `new` to the values it
was called with and the KMS account. The deployment on a free account then fails exactly
if an initial string is present and empty (or a fault of the chain intervenes);
otherwise the owner is the only super admin and the only holder of `Owner`, each list
has the one initial entry if there is one, and the flags are as given. -/
theorem factory_initialises {w w' : World ch} {sender : Sender} {args : RegisterAppArgs}
    {out : Kms.Outcome} {deployment : Kms.Deployment}
    (hok : Kms.registerApp ch.deps (w.context sender) w.kms args = .ok out)
    (hpromise : out.promise = some (.deployApp deployment))
    (hnames : NamesParse ch.deps args w.kmsId) :
    App.NewArgs.ofJson ch.deps deployment.args =
        some { ownerId := args.ownerId
               disableUpgrades := args.disableUpgrades
               allowAnyDevice := args.allowAnyDevice
               initialDeviceId := args.initialDeviceId
               initialComposeHash := args.initialComposeHash
               kmsContractId := some w.kmsId } ∧
      (w'.initApp deployment = none ↔
        args.initialDeviceId = some "" ∨ args.initialComposeHash = some "") ∧
      (∀ fault, w'.deploy deployment fault = none ↔
        deployment.account ∈ w'.accounts ∨ fault = true ∨
          args.initialDeviceId = some "" ∨ args.initialComposeHash = some "") ∧
      ∀ app, w'.initApp deployment = some app →
        app.plugins.acl.superAdmins = [args.ownerId] ∧
          app.plugins.acl.grantees = [(App.Role.owner, args.ownerId)] ∧
          ∃ c, app.contract = some c ∧
            c.allowedDeviceIds.elements = args.initialDeviceId.toList ∧
            c.allowedComposeHashes.elements = args.initialComposeHash.toList ∧
            c.allowAnyDevice = args.allowAnyDevice ∧ c.upgradesDisabled = args.disableUpgrades ∧
            c.kmsContractId = some w.kmsId := by
  rcases Kms.registerApp_eq_ok hok with ⟨-, -, -, -, howner, -, -⟩
  rcases Kms.deployment_of_registerApp hok hpromise with ⟨account, rfl⟩
  have hargs : App.NewArgs.ofJson ch.deps (Kms.deploymentOn (w.context sender) args account).args =
      some (newArgsOf args w.kmsId) := ofJson_initArgs hnames
  have hinit := @initApp_of_args ch w' _ _ _ hargs rfl howner
  have hfails : w'.initApp (Kms.deploymentOn (w.context sender) args account) = none ↔
      EmptyInitial args := by
    constructor
    · intro hnone
      by_contra hnot
      rw [hinit.2 hnot] at hnone
      cases hnone
    · exact hinit.1
  refine ⟨hargs, hfails, ?_, ?_⟩
  · intro fault
    unfold deploy
    split_ifs with h
    · -- the batch fails before `new` is called
      simp only [true_iff]
      rcases h with h | h
      · exact Or.inl h
      · exact Or.inr (Or.inl h)
    · rw [not_or] at h
      rw [hfails, EmptyInitial]
      simp only [h.1, h.2, Bool.false_eq_true, false_or]
  · intro app happ
    have hnot : ¬ EmptyInitial args := by
      rw [← hfails, happ]
      simp
    rw [hinit.2 hnot] at happ
    rw [← Option.some.inj happ]
    exact ⟨rfl, rfl, _, rfl, elements_initialSet _, elements_initialSet _, rfl, rfl, rfl⟩

/-- An app with a device whose name has to be escaped, and with an empty compose hash. -/
def quotedArgs (initialComposeHash : Option String) : RegisterAppArgs :=
  { sampleArgs with
    initialDeviceId := some "a \"quoted\" device"
    initialComposeHash := initialComposeHash }

theorem namesParse_quotedArgs (initialComposeHash : Option String) :
    NamesParse sampleChain.deps (quotedArgs initialComposeHash)
      (after sampleWorld [initKms]).kmsId where
  ownerId := by
    have hok : sampleChain.deps.accountIdOk "owner.near" = true := by decide +kernel
    exact if_pos hok
  kmsId := by
    have hok : sampleChain.deps.accountIdOk "kms.near" = true := by decide +kernel
    rw [kmsId_after]
    exact if_pos hok

theorem registerApp_quotedArgs {initialComposeHash : Option String}
    (hok : (Kms.registerApp sampleChain.deps
      ((after sampleWorld [initKms]).context (senderOf Kms.ownerAccount sampleDeposit))
      (after sampleWorld [initKms]).kms (quotedArgs initialComposeHash)).toOption.isSome = true) :
    ∃ out deployment, Kms.registerApp sampleChain.deps
        ((after sampleWorld [initKms]).context (senderOf Kms.ownerAccount sampleDeposit))
        (after sampleWorld [initKms]).kms (quotedArgs initialComposeHash) = .ok out ∧
      out.promise = some (.deployApp deployment) := by
  rcases Option.isSome_iff_exists.1 hok with ⟨out, hout⟩
  have hok' := Kms.toOption_eq_some.1 hout
  rcases Kms.registerApp_eq_ok hok' with ⟨_, account, _, _, _, _, rfl⟩
  exact ⟨_, _, hok', rfl⟩

/-- The deployment is initialized with the one device, and fails with the empty hash. -/
theorem factory_initialises_sample :
    (∃ deployment app, (after sampleWorld [initKms]).initApp deployment = some app ∧
        ∃ c, app.contract = some c ∧ c.allowedDeviceIds.elements = ["a \"quoted\" device"]) ∧
      ∃ deployment, (after sampleWorld [initKms]).initApp deployment = none := by
  constructor
  · have hcall := @registerApp_quotedArgs none (by decide +kernel)
    rcases hcall with ⟨out, deployment, hok, hpromise⟩
    have hfactory := @factory_initialises sampleChain _ (after sampleWorld [initKms]) _ _ _ _
      hok hpromise (namesParse_quotedArgs none)
    rcases hfactory with ⟨-, hfails, -, hstate⟩
    cases hinit : (after sampleWorld [initKms]).initApp deployment with
    | none =>
        rcases hfails.1 hinit with h | h
        · have hdevice : "a \"quoted\" device" = "" := Option.some.inj h
          exact absurd hdevice (by decide)
        · cases h
    | some app =>
        rcases hstate app hinit with ⟨-, -, c, hc, hdevice, -⟩
        exact ⟨deployment, app, hinit, c, hc, hdevice⟩
  · have hcall := @registerApp_quotedArgs (some "") (by decide +kernel)
    rcases hcall with ⟨out, deployment, hok, hpromise⟩
    have hfactory := @factory_initialises sampleChain _ (after sampleWorld [initKms]) _ _ _ _
      hok hpromise (namesParse_quotedArgs (some ""))
    rcases hfactory with ⟨-, hfails, -⟩
    exact ⟨deployment, hfails.2 (Or.inr rfl)⟩

end World

end NearKms
