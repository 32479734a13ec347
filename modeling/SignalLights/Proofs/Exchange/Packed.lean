import SignalLights.Exchange.Command
import SignalLights.Exchange.Config
import SignalLights.Proofs.Packed.Lawful

/-!
# Packed values

Every type that is exchanged as packed bytes has a lawful codec: configurations and commands, and
the enumerations on their own (`packed_values`).
-/

namespace SignalLights

open Packed Codec

/-- The bytes of the text of a command can be counted in 64 bits, as those of every text in memory
can. -/
def Command.Countable : Command → Prop
  | .warn text => text.utf8ByteSize < 2 ^ 64
  | _ => True

theorem Config.packed_lawful : Config.packed.Lawful fun _ => True := by
  have hfields :=
    (lawful_enumerated (τ := Profile) (by decide)).pair <| lawful_uint32.pair <|
      lawful_binary64.pair <| lawful_bool.pair <|
        (lawful_enumerated (τ := RangeIndicator) (by decide)).pair <| lawful_bool.pair lawful_uint32
  exact (hfields.map (fun _ => rfl) (fun _ _ => rfl)).congr fun _ => by simp

/-- Whether a payload fits its kind of command. -/
def Command.FitsPayload (k : Kind) (a : Payload k) : Prop := (ofPayload ⟨k, a⟩).Countable

theorem Command.payload_lawful (k : Kind) : (payloadPacked k).Lawful (FitsPayload k) := by
  cases k with
  | setWanted => exact lawful_enumerated (τ := Wanted) (by decide)
  | warn => exact lawful_text
  | configureBlink =>
    exact (lawful_uint32.pair lawful_binary64).congr
      fun _ => iff_of_true ⟨trivial, trivial⟩ trivial
  | setStatus => exact lawful_enumerated (τ := StatusCode) (by decide)
  | setLamp => exact lawful_bool
  | setRangeBlinking => exact lawful_bool

theorem Command.packed_lawful : Command.packed.Lawful Command.Countable := by
  have hkinds : (enumerated Kind).Lawful fun _ => True := lawful_enumerated (by decide)
  refine ((hkinds.tagged payload_lawful).map ofPayload_toPayload
    fun a _ => toPayload_ofPayload a).congr fun c => ?_
  rw [true_and, FitsPayload]
  exact iff_of_eq (congrArg Countable (ofPayload_toPayload c))

/-- **Packed values.** Configurations, commands and the six enumerations are read back from their
bytes, doubles bit for bit, with the bytes that follow left over. Cut off at any place they are
found incomplete. What is read from any bytes is no fewer bytes when it is written, and is read back
from those; a command with a text too long to count is never read. -/
theorem packed_values :
    Config.packed.Lawful (fun _ => True) ∧ Command.packed.Lawful Command.Countable ∧
      (enumerated StatusCode).Lawful (fun _ => True) ∧ (enumerated Wanted).Lawful (fun _ => True) ∧
      (enumerated Mode).Lawful (fun _ => True) ∧ (enumerated Channel).Lawful (fun _ => True) ∧
      (enumerated Profile).Lawful (fun _ => True) ∧
      (enumerated RangeIndicator).Lawful (fun _ => True) := by
  refine ⟨Config.packed_lawful, Command.packed_lawful, ?_, ?_, ?_, ?_, ?_, ?_⟩
  all_goals exact lawful_enumerated (by decide)

/-- A number with leading groups of zero is read all the same, from more bytes than it needs. -/
example : (enumerated Wanted).read [0x82, 0x80, 0x00] = .ok (.blink, []) ∧
    (enumerated Wanted).write .blink = [2] := ⟨rfl, rfl⟩

end SignalLights
