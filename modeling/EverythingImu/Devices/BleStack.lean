import EverythingImu.Library.Dialogue

/-!
# The Bluetooth stack

What the drivers of Bluetooth Low Energy devices ask of the stack, and what it may answer: an error where it can fail,
any list of characteristics, any notifications.  A driver is a dialogue of these questions.
-/

namespace EverythingImu.Devices

open Dialogue

abbrev Uuid := BitVec 128

structure Characteristic where
  uuid : Uuid
  /-- It has the notify property. -/
  notify : Bool
deriving DecidableEq

/-- What a driver asks of the stack. -/
inductive Ble where
  | isConnected
  | connect
  | discoverServices
  | disconnect
  | requestConnectionParameters
  | characteristics
  | sleep (millis : Nat)
  | subscribe (char : Uuid)
  | unsubscribe (char : Uuid)
  | notifications
  /-- The notifications of the next 1.5 s, with their times in nanoseconds. -/
  | arrivals
  /-- The notifications of the next 2 s, or until the stream ends. -/
  | responses
  | write (char : Uuid) (cmd : List UInt8)
deriving DecidableEq

/-- What the stack may answer; errors by their texts. -/
abbrev Ble.Answer : Ble → Type
  | .isConnected => Except String Bool
  | .connect | .discoverServices | .disconnect | .requestConnectionParameters | .subscribe _ | .unsubscribe _
  | .notifications | .write _ _ => Except String Unit
  | .characteristics => List Characteristic
  | .sleep _ => Unit
  | .arrivals => List (Uuid × Nat)
  | .responses => List (Uuid × List UInt8)

namespace Ble

abbrev Program := Dialogue Ble Ble.Answer

/-- One question to the stack. -/
abbrev ble (op : Ble) : Program op.Answer := Dialogue.question op

def findChar (uuid : Uuid) : Program (Option Characteristic) := do
  let chars ← ble .characteristics
  return chars.find? (·.uuid == uuid)

/-- Where one may always ask for the characteristics: what is found is the one that was looked for, and the ledger stays
as it is. -/
theorem findChar_wp {σ : Type} {P : Protocol Ble Ble.Answer σ} {s : σ} (hallowed : P.Allowed s .characteristics)
    (hsame : ∀ r, P.after s .characteristics r = s) (uuid : Uuid) :
    wp P (findChar uuid) (fun found s' => s' = s ∧ ∀ c ∈ found, c.uuid = uuid) s := by
  refine ⟨hallowed, fun chars => ⟨hsame chars, fun c hc => ?_⟩⟩
  have hfound := List.find?_some (Option.mem_def.1 hc)
  exact eq_of_beq hfound

end Ble

end EverythingImu.Devices
