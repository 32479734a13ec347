import SignalLights.Controller.Basic

/-!
# Operations and runs

Everything a caller can ask of a controller, and runs of such operations. A run is the operations
one after the other, its effects those of the operations in order.
-/

namespace SignalLights

inductive Operation where
  | start (now : Binary64)
  | loop (now : Binary64)
  | stop (now : Binary64)
  | want (wanted : Wanted)
  | warn (text : String)
  | configureBlink (count : UInt32) (period : Binary64)
  | setStatus (code : StatusCode)
  | setLamp (on : Bool)
  | setRangeBlinking (on : Bool)
  | handle (command : Command)
  | publish
deriving DecidableEq, Repr

namespace Operation

def step : Operation → Step Controller Effect
  | start now => Controller.start now
  | loop now => Controller.loop now
  | stop now => Controller.stop now
  | want w => Controller.want w
  | warn text => Controller.warn text
  | configureBlink count period => Controller.configureBlink count period
  | setStatus code => Controller.setStatus code
  | setLamp on => Controller.setLamp on
  | setRangeBlinking on => Controller.setRangeBlinking on
  | handle command => Controller.handle command
  | publish => Controller.publish

/-- A command as the operation it asks for. -/
def ofCommand : Command → Operation
  | .setWanted w => want w
  | .warn text => warn text
  | .configureBlink count period => configureBlink count period
  | .setStatus code => setStatus code
  | .setLamp on => setLamp on
  | .setRangeBlinking on => setRangeBlinking on

theorem step_handle (command : Command) : (handle command).step = (ofCommand command).step := by
  cases command <;> rfl

end Operation

namespace Controller

def run (ops : List Operation) : Step Controller Effect := .chain (ops.map Operation.step)

@[simp] theorem run_nil (c : Controller) : run [] c = (c, []) := rfl

@[simp] theorem run_cons (op : Operation) (ops : List Operation) (c : Controller) :
    run (op :: ops) c = ((run ops (op.step c).1).1, (op.step c).2 ++ (run ops (op.step c).1).2) :=
  rfl

theorem run_append (ops ops' : List Operation) (c : Controller) :
    run (ops ++ ops') c =
      ((run ops' (run ops c).1).1, (run ops c).2 ++ (run ops' (run ops c).1).2) := by
  rw [run, List.map_append, Step.chain_append]
  rfl

/-- What every operation keeps, a run keeps. -/
theorem run_keeps {P : Controller → Prop} (h : ∀ op c, P c → P (Operation.step op c).1)
    (ops : List Operation) (c : Controller) (hc : P c) : P (run ops c).1 := by
  induction ops generalizing c with
  | nil => exact hc
  | cons op ops ih => exact ih _ (h op c hc)

end Controller
end SignalLights
