import NearKms.Lib.Hex
import NearKms.Lib.IterableSet

/-!
# The contract host

What a contract method sees of the chain: accounts, keys, the call context, the
ways a call can abort, and the storage that the access-control and pause plugins
keep next to the contract state. A method is a function into `Except Panic`; a
panicking call changes nothing.
-/

namespace NearKms

abbrev Bytes := List UInt8

/-- An account name. -/
structure AccountId where
  asStr : String
deriving DecidableEq, Repr

theorem AccountId.asStr_injective : Function.Injective AccountId.asStr := by
  intro a b h
  cases a
  cases b
  cases h
  rfl

/-- A JSON value; an object maps each of its keys once. -/
inductive Json where
  | null
  | bool (b : Bool)
  | number (literal : String)
  | string (s : String)
  | array (items : List Json)
  | object (members : List (String × Json))

namespace Json

/-- `Value::get` with a string key: only objects have members. -/
def get : Json → String → Option Json
  | .object members, key => members.lookup key
  | _, _ => none

/-- `Value::as_str`. -/
def asStr : Json → Option String
  | .string s => some s
  | _ => none

/-- `Value::as_bool`. -/
def asBool : Json → Option Bool
  | .bool b => some b
  | _ => none

end Json

/-! ## Public keys -/

inductive CurveType where
  | ed25519
  | secp256k1
deriving DecidableEq, Repr

namespace CurveType

/-- The byte a serialized key starts with. -/
def toByte : CurveType → UInt8
  | .ed25519 => 0
  | .secp256k1 => 1

/-- Length of the key body. -/
def dataLen : CurveType → Nat
  | .ed25519 => 32
  | .secp256k1 => 64

end CurveType

/-- A serialized public key: a curve byte and a body of the curve's length. -/
structure PublicKey where
  data : Bytes
  wellFormed : ∃ curve : CurveType, ∃ body : Bytes,
    data = curve.toByte :: body ∧ body.length = curve.dataLen

namespace PublicKey

/-- A key from its curve and body. -/
def ofBody (curve : CurveType) (body : Bytes) (h : body.length = curve.dataLen) : PublicKey :=
  ⟨curve.toByte :: body, curve, body, rfl, h⟩

def asBytes (pk : PublicKey) : Bytes := pk.data

/-- The serialized key without its curve byte. -/
def body (pk : PublicKey) : Bytes := pk.asBytes.drop 1

@[ext] theorem ext_data {pk₁ pk₂ : PublicKey} (h : pk₁.data = pk₂.data) : pk₁ = pk₂ := by
  cases pk₁
  cases pk₂
  cases h
  rfl

/-- The body determines the key: bodies of different curves differ in length. -/
theorem eq_of_body_eq {pk₁ pk₂ : PublicKey} (h : pk₁.body = pk₂.body) : pk₁ = pk₂ := by
  obtain ⟨curve₁, body₁, hdata₁, hlen₁⟩ := pk₁.wellFormed
  obtain ⟨curve₂, body₂, hdata₂, hlen₂⟩ := pk₂.wellFormed
  have hbody : body₁ = body₂ := by
    simpa [body, asBytes, hdata₁, hdata₂] using h
  have hcurve : curve₁ = curve₂ := by
    -- 32 bytes or 64
    have hlen : curve₁.dataLen = curve₂.dataLen := by rw [← hlen₁, ← hlen₂, hbody]
    cases curve₁ <;> cases curve₂ <;> simp_all [CurveType.dataLen]
  apply ext_data
  rw [hdata₁, hdata₂, hcurve, hbody]

end PublicKey

/-! ## Calls -/

/-- The context of one call. `promiseResults` says, for each promise the call
is a callback of, whether it succeeded. -/
structure Context where
  currentAccountId : AccountId
  predecessorAccountId : AccountId
  signerAccountId : AccountId
  signerAccountPk : PublicKey
  attachedDeposit : Nat
  blockTimestampMs : Nat
  promiseResults : List Bool

/-- Why a call aborts: a message of the contract, or a check that the SDK or a
plugin generates. -/
inductive Panic where
  | message (text : String)
  | depositNotAccepted
  | methodPrivate
  | insufficientPermissions
  | methodPaused
  | notInitialized
  | alreadyInitialized
  | noPromiseResult
  | noReceipt
  | upgradeRefused
deriving DecidableEq, Repr

/-- Peels the first computation off a sequence that succeeded. -/
theorem bind_eq_ok {ε α β : Type} {x : Except ε α} {f : α → Except ε β} {b : β} :
    (x >>= f) = .ok b ↔ ∃ a, x = .ok a ∧ f a = .ok b := by
  cases x with
  | error e => simp [bind, Except.bind]
  | ok a => simp [bind, Except.bind]

theorem ok_bind {ε α β : Type} (a : α) (f : α → Except ε β) : (.ok a >>= f) = f a := rfl

theorem error_bind {ε α β : Type} (e : ε) (f : α → Except ε β) :
    (.error e >>= f : Except ε β) = .error e := rfl

theorem map_bind_eq {ε α β γ : Type} (x : Except ε α) (f : α → Except ε β) (g : β → γ) :
    (x >>= f).map g = x >>= fun a => (f a).map g := by
  cases x <;> rfl

/-- Two sequences that begin alike show alike what their rests show alike. -/
theorem map_bind_congr {ε α β γ : Type} {x : Except ε α} {f g : α → Except ε β} {φ : β → γ}
    (h : ∀ a, (f a).map φ = (g a).map φ) : (x >>= f).map φ = (x >>= g).map φ := by
  rw [map_bind_eq, map_bind_eq]
  exact congrArg (x >>= ·) (funext h)

@[simp] theorem pure_eq_ok {α : Type} {a b : α} :
    (pure a : Except Panic α) = .ok b ↔ a = b := by
  simp [pure, Except.pure]

/-- A panic is not a success. -/
@[simp] theorem throw_ne_ok {α : Type} {panic : Panic} {a : α} :
    (throw panic : Except Panic α) ≠ .ok a := by
  simp [throw, throwThe, MonadExceptOf.throw]

/-- `require!`. -/
def require (condition : Prop) [Decidable condition] (text : String) : Except Panic Unit :=
  if condition then pure () else throw (.message text)

/-- `unwrap_or_else(|_| panic_str(text))` and `unwrap`. -/
def unwrapOr {α : Type} (value : Option α) (text : String) : Except Panic α :=
  match value with
  | some a => pure a
  | none => throw (.message text)

/-- The check on methods that are not payable. -/
def assertNoDeposit (ctx : Context) : Except Panic Unit :=
  if ctx.attachedDeposit = 0 then pure () else throw .depositNotAccepted

def assertOneYocto (ctx : Context) : Except Panic Unit :=
  require (ctx.attachedDeposit = 1) "Requires attached deposit of exactly 1 yoctoNEAR"

/-- The check on `#[private]` methods. -/
def assertPrivate (ctx : Context) : Except Panic Unit :=
  if ctx.predecessorAccountId = ctx.currentAccountId then pure () else throw .methodPrivate

/-- The contract in the account's storage, which a method reads before it runs. -/
def readContract {α : Type} (contract : Option α) : Except Panic α :=
  match contract with
  | some c => pure c
  | none => throw .notInitialized

/-- The check on `#[init]` methods. -/
def assertUninitialized {α : Type} (contract : Option α) : Except Panic Unit :=
  if contract.isSome then throw .alreadyInitialized else pure ()

@[simp] theorem readContract_eq_ok {α : Type} {contract : Option α} {c : α} :
    readContract contract = .ok c ↔ contract = some c := by
  cases contract <;>
    simp [readContract]

@[simp] theorem assertUninitialized_eq_ok {α : Type} {contract : Option α} {u : Unit} :
    assertUninitialized contract = .ok u ↔ contract = none := by
  cases contract <;>
    simp [assertUninitialized]

@[simp] theorem require_eq_ok {condition : Prop} [Decidable condition] {text : String}
    {u : Unit} : require condition text = .ok u ↔ condition := by
  by_cases h : condition <;>
    simp [require, h]

@[simp] theorem unwrapOr_eq_ok {α : Type} {value : Option α} {text : String} {a : α} :
    unwrapOr value text = .ok a ↔ value = some a := by
  cases value <;> simp [unwrapOr]

@[simp] theorem assertNoDeposit_eq_ok {ctx : Context} {u : Unit} :
    assertNoDeposit ctx = .ok u ↔ ctx.attachedDeposit = 0 := by
  by_cases h : ctx.attachedDeposit = 0 <;>
    simp [assertNoDeposit, h]

@[simp] theorem assertOneYocto_eq_ok {ctx : Context} {u : Unit} :
    assertOneYocto ctx = .ok u ↔ ctx.attachedDeposit = 1 := require_eq_ok

@[simp] theorem assertPrivate_eq_ok {ctx : Context} {u : Unit} :
    assertPrivate ctx = .ok u ↔ ctx.predecessorAccountId = ctx.currentAccountId := by
  by_cases h : ctx.predecessorAccountId = ctx.currentAccountId <;>
    simp [assertPrivate, h]

/-- What a booting instance says about itself; both contracts declare it alike. -/
structure AppBootInfo where
  appId : AccountId
  composeHash : String
  instanceId : AccountId
  deviceId : String
  mrAggregated : String
  mrSystem : String
  osImageHash : String
  tcbStatus : String
  advisoryIds : List String
deriving DecidableEq

/-! ## Plugin storage -/

/-- The access-control list: who is super admin and who was granted which role. -/
structure Acl (ρ : Type) where
  superAdmins : List AccountId
  grantees : List (ρ × AccountId)

namespace Acl

variable {ρ : Type} [DecidableEq ρ]

/-- Super admins hold no role unless it was granted to them. -/
def hasAnyRole (acl : Acl ρ) (roles : List ρ) (account : AccountId) : Bool :=
  roles.any fun role => decide ((role, account) ∈ acl.grantees)

end Acl

/-- What the plugins store beside the contract's own fields. -/
structure Plugins (ρ : Type) where
  acl : Acl ρ
  pausedKeys : List String

section Guards

variable {ρ : Type}

/-- `#[pause]`: the method's own key or the key of all methods is paused. -/
def assertNotPaused (key : String) (plugins : Plugins ρ) : Except Panic Unit :=
  if key ∈ plugins.pausedKeys ∨ "ALL" ∈ plugins.pausedKeys then throw .methodPaused else pure ()

@[simp] theorem assertNotPaused_eq_ok {key : String} {plugins : Plugins ρ} {u : Unit} :
    assertNotPaused key plugins = .ok u ↔
      key ∉ plugins.pausedKeys ∧ "ALL" ∉ plugins.pausedKeys := by
  by_cases h : key ∈ plugins.pausedKeys ∨ "ALL" ∈ plugins.pausedKeys
  · rcases h with h | h <;> simp [assertNotPaused, h]
  · simp only [assertNotPaused, if_neg h, pure, Except.pure]
    simpa using h

variable [DecidableEq ρ]

/-- `#[access_control_any(roles(..))]`. -/
def accessControlAny (roles : List ρ) (ctx : Context) (plugins : Plugins ρ) : Except Panic Unit :=
  if plugins.acl.hasAnyRole roles ctx.predecessorAccountId then pure ()
  else throw .insufficientPermissions

@[simp] theorem accessControlAny_eq_ok {roles : List ρ} {ctx : Context} {plugins : Plugins ρ}
    {u : Unit} : accessControlAny roles ctx plugins = .ok u ↔
      plugins.acl.hasAnyRole roles ctx.predecessorAccountId = true := by
  cases h : plugins.acl.hasAnyRole roles ctx.predecessorAccountId <;>
    simp [accessControlAny, h]

end Guards

end NearKms
