import Mathlib.Data.List.Infix
import SignalLights.Proofs.Cadence.Phases
import SignalLights.Proofs.Controller.Elapsed
import SignalLights.Proofs.Controller.Lights
import SignalLights.Proofs.Controller.Ticks
import SignalLights.Proofs.Controller.Writes

/-!
# Pulses of a blink run

In a blink run the driver light follows the square wave, so it is turned on at most once in every
half period that is on. A run of `n` cycles has `n` of those. One more begins just where the run
ends: a tick that comes there finds the run not yet past its end, and turns the light on once more
(`turnsOn_stay_le`).
-/

namespace SignalLights

/-- Whether an operation stops the controller. -/
def Operation.stops (op : Operation) : Bool :=
  match op with
  | stop _ => true
  | _ => false

namespace Effect

theorem levelsOn_append (ch : Channel) (es fs : List Effect) :
    levelsOn ch (es ++ fs) = levelsOn ch es ++ levelsOn ch fs := by
  rw [levelsOn, levels_append, List.filterMap_append]
  rfl

theorem mem_levelsOn_iff {ch : Channel} {on : Bool} {es : List Effect} :
    on ∈ levelsOn ch es ↔ .level ch on ∈ es := by
  rw [levelsOn, List.mem_filterMap]
  constructor
  · rintro ⟨⟨d, b⟩, hwritten, hon⟩
    obtain ⟨rfl, rfl⟩ : d = ch ∧ b = on := by simpa using hon
    obtain ⟨e, he, hlevel⟩ := List.mem_filterMap.1 hwritten
    cases e with
    | level =>
      cases hlevel
      exact he
    | _ => cases hlevel
  · exact fun h => ⟨(ch, on), List.mem_filterMap.2 ⟨_, h, rfl⟩, if_pos rfl⟩

/-- How often the driver light is turned on. -/
def turnsOn (es : List Effect) : Nat := (levelsOn .driver es).count true

@[simp] theorem turnsOn_nil : turnsOn [] = 0 := rfl

@[simp] theorem turnsOn_append (es fs : List Effect) :
    turnsOn (es ++ fs) = turnsOn es + turnsOn fs := by
  rw [turnsOn, levelsOn_append, List.count_append]
  rfl

end Effect

namespace Controller

open Effect (levelsOn turnsOn)
open Operation (loopTimes)

variable {c : Controller} {now : Binary64}

/-! ## One operation -/

/-- An operation writes a channel once, with the level that it commands of it, if the channel does
not show that level already. -/
theorem Reachable.levelsOn_step (hc : c.Reachable) (op : Operation) (ch : Channel) :
    levelsOn ch (op.step c).2 = [] ∨
      ∃ on, levelsOn ch (op.step c).2 = [on] ∧ op.commanded c.core ch = some on ∧
        c.latches.level ch ≠ some on ∧ (op.step c).1.latches.level ch = some on := by
  cases hi : c.isInitialized with
  | false =>
    rw [step_inert op hi]
    exact .inl rfl
  | true =>
    obtain ⟨port, hport⟩ := Option.isSome_iff_exists.1 hi
    obtain ⟨hwrites, -, -⟩ := accounts_step op c hport
    rw [hc.policy_eq hi] at hwrites
    have hchain := hwrites.levelsOn_isChain ch
    have hlast := hwrites.level_eq ch
    have hcommanded (on : Bool) (hon : on ∈ levelsOn ch (op.step c).2) :
        op.commanded c.core ch = some on :=
      commanded_of_mem_step (Effect.mem_levelsOn_iff.1 hon)
    generalize levelsOn ch (op.step c).2 = written at *
    cases written with
    | nil => exact .inl rfl
    | cons on rest =>
      have hon := hcommanded on List.mem_cons_self
      cases rest with
      | nil =>
        refine .inr ⟨on, rfl, hon, ?_, hlast⟩
        intro hshown
        rw [hshown] at hchain
        simp at hchain
      | cons on' rest =>
        -- both levels are the one commanded, but a channel is not told one level twice
        have hon' := hcommanded on' (by simp)
        obtain rfl : on = on' := Option.some.inj (hon.symm.trans hon')
        have htwice := (List.isChain_append.1 hchain).2.1
        simp at htwice

/-- An operation turns the driver light on at most once, and then on command. -/
theorem Reachable.turnsOn_step (hc : c.Reachable) (op : Operation) :
    turnsOn (op.step c).2 = 0 ∨
      (turnsOn (op.step c).2 = 1 ∧ op.commanded c.core .driver = some true ∧
        c.isLit .driver = false ∧ (op.step c).1.isLit .driver = true) := by
  unfold turnsOn isLit
  rcases hc.levelsOn_step op .driver with hnone | ⟨on, hone, hcommanded, hbefore, hafter⟩
  · rw [hnone]
    exact .inl rfl
  · rw [hone, hafter]
    cases on with
    | false => exact .inl rfl
    | true =>
      refine .inr ⟨rfl, hcommanded, ?_, rfl⟩
      cases hlevel : c.latches.level .driver with
      | none => rfl
      | some b =>
        rw [hlevel, ne_eq, Option.some.injEq, Bool.not_eq_true] at hbefore
        exact hbefore

/-! ## One tick of a blink run -/

/-- The half periods of the active cadence that a tick finds gone by. -/
def phaseAt (c : Controller) (now : Binary64) : Nat :=
  cycleIndex (Machine.elapsedAt c.machine.since now) c.activeCadence.period

theorem SameRun.phaseAt_eq {d : Controller} (h : c.SameRun d) (now : Binary64) :
    d.phaseAt now = c.phaseAt now := by
  rw [phaseAt, phaseAt, h.2.1, h.2.2]

theorem Reachable.isOver_blinking_iff (hc : c.Reachable) (hm : c.mode = .blinking) :
    c.machine.isOver c.context now = true ↔ c.IsOverdue now := by
  rw [← hc.isExpired_iff, Machine.isOver, show c.machine.mode = .blinking from hm, Row.isTimed,
    Bool.true_and]

/-- A tick of a run that goes on commands the light to be on in every second half period. -/
theorem Reachable.commanded_loop (hc : c.Reachable) (hm : c.mode = .blinking)
    (h : ¬ c.IsOverdue now) :
    (Operation.loop now).commanded c.core .driver = some (c.phaseAt now % 2 == 0) := by
  have hlasts : c.machine.isOver c.context now = false :=
    Bool.eq_false_iff.2 ((hc.isOver_blinking_iff hm).not.2 h)
  have hdemand := (Machine.tick_lasting hlasts).2.2
  rw [show c.machine.mode = .blinking from hm] at hdemand
  have hdriver := congrArg Demand.driver hdemand
  rw [Row.levels, Machine.begin, Demand.both, Machine.timeOf_sub_since hc.isFinite_since]
    at hdriver
  exact hdriver

/-- A tick of a run that goes on leaves the light as the half period has it. It turns the light on
at most once, and only where the light was off. -/
theorem Reachable.turnsOn_loop (hc : c.Reachable) (hi : c.isInitialized) (hdriver : c.has .driver)
    (hm : c.mode = .blinking) (h : ¬ c.IsOverdue now) :
    (loop now c).1.isLit .driver = (c.phaseAt now % 2 == 0) ∧
      (turnsOn (loop now c).2 = 0 ∨
        (turnsOn (loop now c).2 = 1 ∧ c.phaseAt now % 2 = 0 ∧ c.isLit .driver = false)) := by
  have hcommanded := hc.commanded_loop hm h
  have hshows := hc.isLit_step hi (.loop now) hcommanded
  rw [hdriver, Bool.true_and] at hshows
  refine ⟨hshows, (hc.turnsOn_step (.loop now)).imp_right ?_⟩
  rintro ⟨hone, hon, hdark, -⟩
  exact ⟨hone, by simpa [hcommanded] using hon, hdark⟩

/-- The tick that ends a run does not turn the light on. -/
theorem Reachable.turnsOn_loop_overdue (hc : c.Reachable) (hm : c.mode = .blinking)
    (h : c.IsOverdue now) : turnsOn (loop now c).2 = 0 := by
  have hoff : (Operation.loop now).commanded c.core .driver = some false :=
    congrArg Demand.driver (Machine.tick_over ((hc.isOver_blinking_iff hm).2 h)).2.2
  refine (hc.turnsOn_step (.loop now)).resolve_right ?_
  rintro ⟨-, hon, -⟩
  cases hon.symm.trans hoff

/-- Ticks in order find no fewer half periods gone by. -/
theorem Reachable.phaseAt_mono (hc : c.Reachable) {later : Binary64} (hnow : now.isFinite)
    (hlater : later.isFinite) (h : now ≤ later) : c.phaseAt now ≤ c.phaseAt later := by
  refine c.activeCadence.cycleIndex_mono ?_
  rw [Machine.elapsedAt, if_pos hnow, Machine.elapsedAt, if_pos hlater]
  exact Binary64.sub_le_sub_right hnow hlater hc.isFinite_since h

theorem Reachable.phaseAt_le (hc : c.Reachable) (h : ¬ c.IsOverdue now)
    (hon : c.phaseAt now % 2 = 0) : c.phaseAt now ≤ 2 * c.activeCadence.count.toNat := by
  refine c.activeCadence.cycleIndex_le_of_isOn ?_ (decide_eq_false h) (beq_of_eq hon)
  unfold Machine.elapsedAt
  split
  · next hnow =>
    rw [Binary64.sub_eq_add_neg]
    exact Binary64.isNaN_add hnow (by simpa using hc.isFinite_since)
  · rfl

/-! ## A stay in a blink run -/

/-- What a blink run goes through: its cadence is not set and the controller neither started nor
stopped, ticks come in order at finite times, and the mode blinks until the last operation comes. -/
structure IsStay (c : Controller) (ops : List Operation) : Prop where
  spares : ∀ op ∈ ops, op.sparesRun ∧ op.stops = false
  isFinite : ∀ now ∈ loopTimes ops, now.isFinite
  inOrder : (loopTimes ops).Pairwise (· ≤ ·)
  blinking : ∀ part, part <+: ops → part ≠ ops → (run part c).1.mode = .blinking

variable {op : Operation} {ops : List Operation}

theorem IsStay.mode_eq (h : c.IsStay (op :: ops)) : c.mode = .blinking :=
  h.blinking [] List.nil_prefix (by simp)

theorem IsStay.tail (h : c.IsStay (op :: ops)) : (op.step c).1.IsStay ops where
  spares := fun op' hop' => h.spares op' (List.mem_cons_of_mem op hop')
  isFinite := fun now hnow => h.isFinite now (by
    rw [Operation.mem_loopTimes_iff] at hnow ⊢
    exact List.mem_cons_of_mem op hnow)
  inOrder := h.inOrder.sublist (List.Sublist.filterMap _ (List.sublist_cons_self op ops))
  blinking := fun part hpart hne =>
    h.blinking (op :: part) (List.cons_prefix_cons.2 ⟨rfl, hpart⟩) (by simpa using hne)

/-- The tick that ends a run comes last. -/
theorem IsStay.eq_nil_of_isOverdue (h : c.IsStay (.loop now :: ops)) (hc : c.Reachable)
    (hi : c.isInitialized) (hover : c.IsOverdue now) : ops = [] := by
  by_contra hne
  have hblinking := h.blinking [.loop now] ⟨ops, rfl⟩ (by simpa [eq_comm] using hne)
  cases hblinking.symm.trans (hc.loop_overdue hi h.mode_eq hover).1

/-- Ticks later in a stay find no fewer half periods gone by. -/
theorem IsStay.phaseAt_le (h : c.IsStay (.loop now :: ops)) (hc : c.Reachable) {later : Binary64}
    (hlater : .loop later ∈ ops) : c.phaseAt now ≤ c.phaseAt later := by
  have htime : later ∈ loopTimes ops := Operation.mem_loopTimes_iff.2 hlater
  exact hc.phaseAt_mono (h.isFinite now List.mem_cons_self)
    (h.isFinite later (List.mem_cons_of_mem now htime)) (List.rel_of_pairwise_cons h.inOrder htime)

/-- Requests leave the driver light alone. -/
theorem commanded_eq_none (hop : ∀ now, op ≠ .loop now) (hspares : op.sparesRun)
    (hstops : op.stops = false) (core : Machine × Context) : op.commanded core .driver = none := by
  cases op with
  | start now => cases hspares
  | loop now => exact absurd rfl (hop now)
  | stop now => cases hstops
  | handle command => cases command <;> rfl
  | _ => rfl

/-! ## How often the light is turned on -/

/-- The half periods that are on, from the `k`-th on and within `cycles`; where the light is on
already, without the one it is on in. -/
def pulsesLeft (lit : Bool) (k cycles : Nat) : Nat :=
  if lit then cycles - 1 - k / 2 else cycles - (k + 1) / 2

/-- A pulse in the `j`-th half period is one of those left. -/
theorem add_pulsesLeft_le {lit : Bool} {k j cycles pulses : Nat} (hlit : lit → k % 2 = 0)
    (hk : k ≤ j) (hj : j % 2 = 0 → j < 2 * cycles)
    (hpulses : pulses = 0 ∨ (pulses = 1 ∧ j % 2 = 0 ∧ lit = false)) :
    pulses + pulsesLeft (j % 2 == 0) j cycles ≤ pulsesLeft lit k cycles := by
  unfold pulsesLeft
  cases lit with
  | false => grind
  | true => grind

/-- The light is turned on at most once in each of the half periods left that are on. -/
theorem Reachable.turnsOn_run_le (hc : c.Reachable) (hi : c.isInitialized)
    (hdriver : c.has .driver) (hstay : c.IsStay ops) {k cycles : Nat}
    (hlit : c.isLit .driver → k % 2 = 0) (hfrom : ∀ now, .loop now ∈ ops → k ≤ c.phaseAt now)
    (hto : ∀ now, .loop now ∈ ops → ¬ c.IsOverdue now → c.phaseAt now % 2 = 0 →
      c.phaseAt now < 2 * cycles) :
    turnsOn (Controller.run ops c).2 ≤ pulsesLeft (c.isLit .driver) k cycles := by
  induction ops generalizing c k with
  | nil => exact Nat.zero_le _
  | cons op ops ih =>
    obtain ⟨hspares, hstops⟩ := hstay.spares op List.mem_cons_self
    -- as long as the run goes on, later ticks find what they would have found
    have hlater (hsame : c.SameRun (op.step c).1) {j : Nat}
        (hlit' : (op.step c).1.isLit .driver → j % 2 = 0)
        (hfrom' : ∀ now, .loop now ∈ ops → j ≤ c.phaseAt now) :
        turnsOn (Controller.run ops (op.step c).1).2 ≤
          pulsesLeft ((op.step c).1.isLit .driver) j cycles := by
      refine ih (hc.step op) ((isInitialized_step op c).trans hi) (by rwa [has_step])
        hstay.tail hlit' ?_ ?_
      · intro now hnow
        rw [hsame.phaseAt_eq]
        exact hfrom' now hnow
      · intro now hnow hover
        rw [hsame.phaseAt_eq]
        exact hto now (List.mem_cons_of_mem op hnow) ((hsame.isOverdue_iff now).not.1 hover)
    rw [run_cons, Effect.turnsOn_append]
    rcases op.eq_loop_or with ⟨now, rfl⟩ | hop
    · by_cases hover : c.IsOverdue now
      · have hlast : turnsOn ((Operation.loop now).step c).2 = 0 :=
          hc.turnsOn_loop_overdue hstay.mode_eq hover
        rw [hlast, hstay.eq_nil_of_isOverdue hc hi hover]
        exact Nat.zero_le _
      · have hsame : c.SameRun ((Operation.loop now).step c).1 :=
          hc.sameRun_step hi hstay.mode_eq hspares (by
            rintro _ ⟨⟩
            exact hover)
        obtain ⟨hshows, hpulses⟩ := hc.turnsOn_loop hi hdriver hstay.mode_eq hover
        have hrest := hlater hsame (j := c.phaseAt now)
          (fun hon => by simpa using hshows.symm.trans hon) (fun _ => hstay.phaseAt_le hc)
        have hleft := add_pulsesLeft_le hlit (hfrom now List.mem_cons_self)
          (hto now List.mem_cons_self hover) hpulses
        rw [← hshows] at hleft
        exact (Nat.add_le_add_left hrest _).trans hleft
    · have hnone := commanded_eq_none hop hspares hstops c.core
      have hsame : c.SameRun (op.step c).1 :=
        hc.sameRun_step hi hstay.mode_eq hspares fun now hnow => absurd hnow (hop now)
      have hrest := hlater hsame (j := k) (by rwa [isLit_step_of_none hi op hnone])
        (fun now hnow => hfrom now (List.mem_cons_of_mem op hnow))
      rcases hc.turnsOn_step op with hzero | ⟨-, hon, -⟩
      · rwa [hzero, Nat.zero_add, ← isLit_step_of_none hi op hnone]
      · cases hon.symm.trans hnone

/-- A light that is missing is not turned on. -/
theorem turnsOn_run_of_missing (h : c.has .driver = false) (ops : List Operation) :
    turnsOn (run ops c).2 = 0 := by
  cases hport : c.port with
  | none =>
    rw [run_inert ops (by simp [isInitialized, hport])]
    rfl
  | some port =>
    have hmissing : port.has .driver = false := by simpa [has, hport] using h
    rw [turnsOn, (accounts_run ops c hport).1.levelsOn_eq_nil hmissing]
    rfl

/-- Where no tick comes in a half period that is on and lies past some cycles, the light is turned on
at most once in each of those cycles, and in the first not at all if it is on already. -/
theorem Reachable.turnsOn_stay_le_of_within (hc : c.Reachable) (hstay : c.IsStay ops)
    {cycles : Nat} (hto : ∀ now, .loop now ∈ ops → ¬ c.IsOverdue now → c.phaseAt now % 2 = 0 →
      c.phaseAt now < 2 * cycles) :
    turnsOn (Controller.run ops c).2 ≤ if c.isLit .driver then cycles - 1 else cycles := by
  cases hdriver : c.has .driver with
  | false =>
    rw [turnsOn_run_of_missing hdriver]
    exact Nat.zero_le _
  | true =>
    have hi : c.isInitialized := Option.isSome_of_any hdriver
    exact hc.turnsOn_run_le hi hdriver hstay (k := 0) (fun _ => rfl) (fun _ _ => Nat.zero_le _) hto

/-- **A run of `n` cycles shows at most `n + 1` pulses.** A tick enters a blink run, which goes on
until a tick finds it past its end, whatever is requested meanwhile. From the first tick to the last
the driver light is turned on at most once more often than the run has cycles. It is turned on no
more often than that if no tick comes just at the end, where all half periods are gone and the run
is not yet past its end; in a run without cycles that leaves out the tick that enters, which still
serves the mode before. -/
theorem turnsOn_stay_le (hc : c.Reachable) (entry : Binary64) {stay : List Operation}
    (hstay : (loop entry c).1.IsStay stay) :
    let d := (loop entry c).1
    let n := d.activeCadence.count.toNat
    let entered := turnsOn (loop entry c).2
    let after := turnsOn (run stay d).2
    entered + after ≤ n + 1 ∧
      ((∀ now, .loop now ∈ stay → ¬ d.IsOverdue now → d.phaseAt now ≠ 2 * n) →
        after ≤ n ∧ (0 < n → entered + after ≤ n)) := by
  intro d n entered after
  have hd : d.Reachable := hc.step (.loop entry)
  have hwithin {now : Binary64} (hover : ¬ d.IsOverdue now) (hon : d.phaseAt now % 2 = 0) :
      d.phaseAt now ≤ 2 * n := hd.phaseAt_le hover hon
  have hentered : entered = 0 ∨ (entered = 1 ∧ d.isLit .driver) :=
    (hc.turnsOn_step (.loop entry)).imp_right fun ⟨hone, _, _, hlit⟩ => ⟨hone, hlit⟩
  constructor
  · have hnext {now : Binary64} (hover : ¬ d.IsOverdue now) (hon : d.phaseAt now % 2 = 0) :
        d.phaseAt now < 2 * (n + 1) := Nat.lt_of_le_of_lt (hwithin hover hon) (by omega)
    have hpulses : after ≤ if d.isLit .driver then n + 1 - 1 else n + 1 :=
      hd.turnsOn_stay_le_of_within hstay fun _ _ hover hon => hnext hover hon
    grind
  · intro hend
    have hpulses : after ≤ if d.isLit .driver then n - 1 else n :=
      hd.turnsOn_stay_le_of_within hstay fun now hnow hover hon =>
        Nat.lt_of_le_of_ne (hwithin hover hon) (hend now hnow hover)
    grind

/-- A board asked to blink four times, every 0.2 s. -/
def aboutToBlink : Controller :=
  (history .standard (.ok ⟨.all true, true⟩) [.want .blink]).1

/-- Ticks at 0, 0.1 and so on to 0.7 s, with a request among them. -/
def cyclesOfRun : List Operation :=
  [.loop .zero, .loop ⟨0x3fb999999999999a⟩, .want .fixedOn, .loop ⟨0x3fc999999999999a⟩,
    .loop ⟨0x3fd3333333333333⟩, .loop ⟨0x3fd999999999999a⟩, .loop .half,
    .loop ⟨0x3fe3333333333333⟩, .loop ⟨0x3fe6666666666666⟩]

/-- A tick at 0.8 s, where four cycles end, and one at 0.9 s. -/
def atItsEnd : List Operation := [.loop ⟨0x3fe999999999999a⟩, .loop ⟨0x3feccccccccccccd⟩]

theorem isStay_of_inits {ops : List Operation}
    (hspares : ∀ op ∈ ops, op.sparesRun ∧ op.stops = false)
    (hfinite : ∀ now ∈ loopTimes ops, now.isFinite) (horder : (loopTimes ops).Pairwise (· ≤ ·))
    (hblinking : ∀ part ∈ ops.inits, part ≠ ops → (run part c).1.mode = .blinking) :
    c.IsStay ops :=
  ⟨hspares, hfinite, horder, fun part hpart => hblinking part ((List.mem_inits part ops).2 hpart)⟩

theorem isStay_throughItsEnd : (loop .zero aboutToBlink).1.IsStay (cyclesOfRun ++ atItsEnd) :=
  isStay_of_inits (by decide) (by decide +kernel) (by decide +kernel) (by decide +kernel)

theorem turnsOn_stay_le_standard :
    let d := (loop .zero aboutToBlink).1
    let entered := turnsOn (loop .zero aboutToBlink).2
    entered + turnsOn (run (cyclesOfRun ++ atItsEnd) d).2 ≤ 5 ∧
      entered + turnsOn (run (cyclesOfRun ++ atItsEnd.tail) d).2 ≤ 4 := by
  intro d entered
  have hc : aboutToBlink.Reachable := ⟨_, _, _, rfl⟩
  have hshort : d.IsStay (cyclesOfRun ++ atItsEnd.tail) :=
    isStay_of_inits (by decide) (by decide +kernel) (by decide +kernel) (by decide +kernel)
  have hend : ∀ now ∈ loopTimes (cyclesOfRun ++ atItsEnd.tail), ¬ d.IsOverdue now →
      d.phaseAt now ≠ 2 * d.activeCadence.count.toNat := by
    decide +kernel
  exact ⟨(turnsOn_stay_le hc .zero isStay_throughItsEnd).1,
    ((turnsOn_stay_le hc .zero hshort).2 fun now hnow =>
      hend now (Operation.mem_loopTimes_iff.2 hnow)).2 (by decide +kernel)⟩

/-- A tick just at the end of four cycles begins a fifth pulse. -/
theorem fifth_pulse :
    let d := (loop .zero aboutToBlink).1
    aboutToBlink.mode = .off ∧ d.mode = .blinking ∧ d.IsStay (cyclesOfRun ++ atItsEnd) ∧
      (run (cyclesOfRun ++ atItsEnd) d).1.mode = .off ∧ d.activeCadence.count = 4 ∧
      turnsOn (loop .zero aboutToBlink).2 + turnsOn (run (cyclesOfRun ++ atItsEnd) d).2 = 5 :=
  ⟨by decide +kernel, by decide +kernel, isStay_throughItsEnd, by decide +kernel,
    by decide +kernel, by decide +kernel⟩

end Controller
end SignalLights
