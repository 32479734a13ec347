import SignalLights.Proofs.Machine.Tick

/-!
# Contexts that act alike

A tick overwrites the time spent in the mode and the demand before any row reads them. The active
cadence is read only in a mode that blinks; the selected one only on entry to such a mode, which
takes a request that blinks. So two contexts that differ there alone act alike: a tick demands the
same of both, leads both to the same mode, and leaves them alike (`Machine.tick_alike`).
-/

namespace SignalLights

/-- Contexts in mode `m` that differ only in what no later tick reads. -/
structure Context.Alike (m : Mode) (c d : Context) : Prop where
  wanted : d.wanted = c.wanted
  base : d.base = c.base
  selected : c.wanted.mode.blinks → d.selected = c.selected
  active : m.blinks → d.active = c.active
  rangeFindingIsFinite : d.rangeFindingIsFinite = c.rangeFindingIsFinite
  rangeIndicator : d.rangeIndicator = c.rangeIndicator
  rangeBlinkEnabled : d.rangeBlinkEnabled = c.rangeBlinkEnabled

/-- What two rows answer, when they answer alike in mode `m`. -/
structure Outcome.Alike (m : Mode) (o p : Outcome) : Prop where
  context : o.context.Alike m p.context
  demand : p.context.demand = o.context.demand
  next : p.next = o.next
  notices : p.notices = o.notices
  /-- Only a request leads into a mode that blinks. -/
  asked : o.next ≠ m → o.next.blinks → o.context.wanted.mode.blinks

namespace Context.Alike

variable {m : Mode} {c d : Context}

theorem refl (m : Mode) (c : Context) : c.Alike m c :=
  ⟨rfl, rfl, fun _ => rfl, fun _ => rfl, rfl, rfl, rfl⟩

theorem symm (h : c.Alike m d) : d.Alike m c where
  wanted := h.wanted.symm
  base := h.base.symm
  selected hb := (h.selected (h.wanted ▸ hb)).symm
  active hb := (h.active hb).symm
  rangeFindingIsFinite := h.rangeFindingIsFinite.symm
  rangeIndicator := h.rangeIndicator.symm
  rangeBlinkEnabled := h.rangeBlinkEnabled.symm

theorem trans {e : Context} (h : c.Alike m d) (h' : d.Alike m e) : c.Alike m e where
  wanted := h'.wanted.trans h.wanted
  base := h'.base.trans h.base
  selected hb := (h'.selected (h.wanted ▸ hb)).trans (h.selected hb)
  active hb := (h'.active hb).trans (h.active hb)
  rangeFindingIsFinite := h'.rangeFindingIsFinite.trans h.rangeFindingIsFinite
  rangeIndicator := h'.rangeIndicator.trans h.rangeIndicator
  rangeBlinkEnabled := h'.rangeBlinkEnabled.trans h.rangeBlinkEnabled

theorem begin {m : Machine} (h : c.Alike m.mode d) (now : Binary64) :
    (m.begin c now).Alike m.mode (m.begin d now) :=
  { h with }

/-- Where nothing blinks and nothing is asked to, no cadence is in use. -/
theorem of_off (hc : c.wanted = .off) (hd : d.wanted = .off) (hbase : d.base = c.base)
    (hfinite : d.rangeFindingIsFinite = c.rangeFindingIsFinite)
    (hindicator : d.rangeIndicator = c.rangeIndicator)
    (hrange : d.rangeBlinkEnabled = c.rangeBlinkEnabled) : c.Alike .off d where
  wanted := hd.trans hc.symm
  base := hbase
  selected hb := by
    rw [hc] at hb
    exact absurd hb Bool.false_ne_true
  active hb := absurd hb Bool.false_ne_true
  rangeFindingIsFinite := hfinite
  rangeIndicator := hindicator
  rangeBlinkEnabled := hrange

/-- A request chooses the cadence of a mode that blinks. -/
theorem request (h : c.Alike m d) (w : Wanted) : (c.request w).Alike m (d.request w) := by
  cases w with
  | off | fixedOn => exact { h with wanted := rfl, selected := nofun }
  | blink => exact { h with wanted := rfl, selected := fun _ => h.base }
  | findRange | warn =>
    exact { h with wanted := rfl, selected := fun _ => congrArg Cadence.hurried h.base }

theorem override (h : c.Alike m d) (cadence : Cadence) :
    (c.override cadence).Alike m (d.override cadence) :=
  { h with selected := fun _ => rfl, active := fun _ => rfl }

theorem follow (h : c.Alike m d) (demand : Demand) :
    (Row.follow c demand).Alike m (Row.follow d demand) where
  context := { h with }
  demand := rfl
  next := congrArg Wanted.mode h.wanted
  notices := rfl
  asked := fun _ hb => hb

theorem expire (h : c.Alike m d) (he : d.elapsed = c.elapsed) :
    (Row.expire c).Alike m (Row.expire d) where
  context := { h with wanted := rfl, selected := nofun }
  demand := rfl
  next := rfl
  notices := by simp [Row.expire, he]
  asked := nofun

theorem rangeDemand (h : c.Alike .rangeFinding d) (he : d.elapsed = c.elapsed)
    (hd : d.demand = c.demand) : Row.rangeDemand d = Row.rangeDemand c := by
  simp only [Row.rangeDemand, h.rangeIndicator, h.rangeBlinkEnabled, h.active rfl, he, hd]

/-- A row reads the active cadence only in a mode that blinks. -/
theorem update (h : c.Alike m d) (he : d.elapsed = c.elapsed) (hd : d.demand = c.demand) :
    ((Row.standard m).update c).Alike m ((Row.standard m).update d) := by
  cases m with
  | off => exact h.follow _
  | fixedOn =>
    have hf := h.follow { c.demand with driver := some true }
    simpa only [Row.standard, Row.fixedOn, hd] using hf
  | blinking =>
    simp only [Row.standard, Row.blinking, h.active rfl, he]
    split
    · exact h.expire he
    · exact ⟨{ h with active := fun _ => rfl }, rfl, rfl, rfl, fun hne => absurd rfl hne⟩
  | rangeFinding =>
    simp only [Row.standard, Row.rangeFinding, h.rangeFindingIsFinite, h.active rfl, he,
      h.rangeDemand he hd]
    split
    · exact h.expire he
    · exact h.follow _

/-- On entry to a mode that blinks the selected cadence is made the active one. -/
theorem enter (h : c.Alike m d) {next : Mode} (hnext : next.blinks → c.wanted.mode.blinks) :
    (Machine.enter (Row.standard next) c).Alike next (Machine.enter (Row.standard next) d) := by
  cases next with
  | off | fixedOn => exact { h with active := nofun }
  | blinking | rangeFinding => exact { h with active := fun _ => h.selected (hnext rfl) }

end Context.Alike

namespace Machine

/-- A tick takes contexts that act alike to ones that do, and shows the same on the way. -/
theorem tick_alike {m : Machine} {c d : Context} (h : c.Alike m.mode d) (now : Binary64) :
    let t := m.tick Row.standard c now
    let u := m.tick Row.standard d now
    u.machine = t.machine ∧ t.context.Alike t.machine.mode u.context ∧
      u.context.demand = t.context.demand ∧ u.transition = t.transition ∧ u.notices = t.notices := by
  have ho := (h.begin now).update rfl rfl
  simp only [tick, Row.mode_standard, ho.next, ho.notices]
  split
  · exact ⟨rfl, ho.context, ho.demand, rfl, rfl⟩
  · next hne =>
    refine ⟨rfl, ho.context.enter (ho.asked hne), ?_, rfl, rfl⟩
    rw [demand_enter, demand_enter, ho.demand]

end Machine
end SignalLights
