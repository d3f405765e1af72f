import NearKms.Host

/-!
# The upgrade plugin

Both contracts derive it and open its entry points to `Owner`. The plugin is a
parameter: what it stores, and its checks.

A deployment takes two receipts. The call of `up_deploy_code` sends the staged code to
the account itself, in a batch with a call of `up_verify_state`. The batch runs later,
and as a whole: where the new code does not answer that call, or where the batch fails
for another reason, the account keeps the code it has. What the batch may call besides
on the new code is a call of the account on itself like any other.
-/

namespace NearKms

/-- The plugin: staged code with whatever else it stores, its own checks on staging and
on deploying (staging duration, code hash), and which code answers `up_verify_state`. -/
structure Upgradable where
  Storage : Type
  stageCode : Storage → Context → Bytes → Except Panic Storage
  stagedCode : Storage → Option Bytes
  mayDeploy : Storage → Context → String → Bool
  verifiesState : Bytes → Bool

namespace Upgradable

variable (up : Upgradable)

/-- The code that `up_deploy_code` sends to the account. -/
def codeToDeploy (upgrades : up.Storage) (ctx : Context) (hash : String) : Except Panic Bytes :=
  match up.mayDeploy upgrades ctx hash, up.stagedCode upgrades with
  | true, some code => pure code
  | _, _ => throw .upgradeRefused

/-- The code of an account after the batch that deploys `staged`. `fault` makes the batch
fail for a reason outside the new code. -/
def codeAfter (code staged : Bytes) (fault : Bool) : Bytes :=
  if up.verifiesState staged && !fault then staged else code

variable {up}

theorem codeToDeploy_eq_ok {upgrades : up.Storage} {ctx : Context} {hash : String}
    {code : Bytes} :
    up.codeToDeploy upgrades ctx hash = .ok code ↔
      up.mayDeploy upgrades ctx hash = true ∧ up.stagedCode upgrades = some code := by
  unfold codeToDeploy
  cases up.mayDeploy upgrades ctx hash with
  | false => simp
  | true => cases up.stagedCode upgrades <;> simp

/-- A batch changes the code exactly if it goes through with other code. -/
theorem codeAfter_ne_iff {code staged : Bytes} {fault : Bool} :
    up.codeAfter code staged fault ≠ code ↔
      fault = false ∧ up.verifiesState staged = true ∧ staged ≠ code := by
  unfold codeAfter
  cases fault <;> cases up.verifiesState staged <;> simp

end Upgradable

/-! ## A concrete plugin -/

/-- What the plugin stores: the staged code, when it may be deployed, and the
staging duration. -/
structure Staging where
  code : Option Bytes
  deployableAtMs : Option Nat
  durationMs : Nat

/-- The plugin's checks: staging takes its duration, and a deployment names the
hash of the staged code. `hashText` is how the plugin writes that hash, and `exports`
says which code has the entry point `up_verify_state`. -/
def stagingPlugin (hashText : Bytes → String) (exports : Bytes → Bool) : Upgradable where
  Storage := Staging
  stageCode := fun u ctx code =>
    if code = [] then pure { u with code := none, deployableAtMs := none }
    else pure { u with
      code := some code
      deployableAtMs := some (ctx.blockTimestampMs + u.durationMs) }
  stagedCode := fun u => u.code
  mayDeploy := fun u ctx hash =>
    match u.code, u.deployableAtMs with
    | some code, some deployableAtMs =>
        deployableAtMs ≤ ctx.blockTimestampMs && hash == hashText code
    | _, _ => false
  verifiesState := exports

/-- The header of an empty wasm module. -/
def emptyModule : Bytes := [0, 97, 115, 109, 1, 0, 0, 0]

/-- A wasm module with one function, which does nothing and is exported as
`up_verify_state`. -/
def verifyingModule : Bytes :=
  emptyModule ++ [
    1, 4, 1, 96, 0, 0,
    3, 2, 1, 0,
    7, 19, 1, 15,
    117, 112, 95, 118, 101, 114, 105, 102, 121, 95, 115, 116, 97, 116, 101, 0, 0,
    10, 4, 1, 2, 0, 11]

/-- The plugin's text of a hash, for these two modules. -/
def sampleHashText (code : Bytes) : String :=
  if code = verifyingModule then "6KukZnuXUeHQAi5eA8A2CtvkCWtafadB9oGwqaEjRf4n"
  else "AwLEfgaHQguPVVLGUV9Sf5QKGrMMMr2N6MVSjBj9dJAh"

def samplePlugin : Upgradable :=
  stagingPlugin sampleHashText fun code => code == verifyingModule

end NearKms
