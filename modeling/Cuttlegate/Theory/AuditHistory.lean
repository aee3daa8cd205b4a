import Cuttlegate.Lib.Ledger
import Cuttlegate.Theory.ToggleFailures

/-!
# The History a Flag's Audit Events Tell

Whether the audit events of a run of toggles tell the true history of every
flag in every environment.

A toggle never reads the row it writes. What its event says about the state
before is the opposite of what was asked for, so the event is true exactly if
the toggle changed the stored value, where a missing row counts as disabled.
What it says about the state after is always true.

The log is a ledger of the stored values, and a run of toggles that each
change the value if and only if their event is recorded keeps it. Then the
events about one flag and environment form a chain. A change whose event is
lost breaks it as well: for a call without a source, recording is best effort.

## Main definitions

* `ToggleCall.lines`, `linesOf`: What the log says of a call, and of a run.
* `EachCall`: A condition on every call of a run.
* `ToldTruly`: Every event of a call tells the state before and after it.
* `ToggleCall.Flips`, `ToggleCall.Booked`: The conditions.

## Theorems

* `ToggleCall.lines_cases`: What a toggle does to the log and to the states.
* `toldTruly_iff`: When the events of a run are true.
* `audit_history_chains`: They are then a history, as far as none is lost.
* `audit_history_repeats`: In general they are not.
-/

namespace Cuttlegate

/-! ## What the log says of a run -/

/-- The state of a flag in an environment; without a row it is disabled. -/
def Store.isOn (s : Store) (flagID environmentID : String) : Bool :=
  (s.enabledAt flagID environmentID).getD false

/-- A state as the audit events spell it. -/
def stateText (enabled : Bool) : String := if enabled then "enabled" else "disabled"

theorem stateText_inj (a b : Bool) : stateText a = stateText b ↔ a = b := by
  cases a <;> cases b <;> simp [stateText]

/-- A toggle by some caller. -/
structure ToggleCall where
  ctx : Ctx
  params : SetEnabledParams

namespace ToggleCall

/-- The world a toggle leaves. -/
def after (h : Host) (c : ToggleCall) (w : World) : World :=
  (Proc.run (exec h) (FlagService.setEnabled c.ctx c.params) w).2

/-- What the events that a toggle appends say about the flag in the environment
    of the call. -/
def lines (h : Host) (c : ToggleCall) (w : World) :
    List (Ledger.Line (String × String) String) :=
  ((c.after h w).store.auditEvents.drop w.store.auditEvents.length).map (fun a =>
    ⟨(a.entityID, c.params.environmentID), a.beforeState, a.afterState⟩)

end ToggleCall

/-- What the events of a run say. -/
def linesOf (h : Host) : List ToggleCall → World → List (Ledger.Line (String × String) String)
  | [], _ => []
  | c :: rest, w => c.lines h w ++ linesOf h rest (c.after h w)

/-- The world a run leaves. -/
def afterAll (h : Host) : List ToggleCall → World → World
  | [], w => w
  | c :: rest, w => afterAll h rest (c.after h w)

/-- Every call of a run meets a condition in the world it is made in. -/
def EachCall (P : ToggleCall → World → Prop) (h : Host) : List ToggleCall → World → Prop
  | [], _ => True
  | c :: rest, w => P c w ∧ EachCall P h rest (c.after h w)

/-- The state of a flag in an environment, as the audit events spell it. -/
def World.stateOf (w : World) (key : String × String) : String :=
  stateText (w.store.isOn key.1 key.2)

/-- The events of the call tell the state just before and just after it. -/
def ToldTruly (h : Host) (c : ToggleCall) (w : World) : Prop :=
  ∀ line ∈ c.lines h w, line.before = w.stateOf line.key ∧
    line.after = (c.after h w).stateOf line.key

namespace ToggleCall

/-- If the toggle comes to write its row and its event can be recorded, then it
    asks for a value that is not the stored one. -/
def Flips (h : Host) (c : ToggleCall) (w : World) : Prop :=
  ∀ f, Togglable h c.ctx c.params w f → Auditable h c.params.projectID (w.calls + 4) w.store →
    w.store.isOn f.id c.params.environmentID ≠ c.params.enabled

/-- If the toggle comes to write its row, then it asks for a value that is not
    the stored one exactly when its event can be recorded. -/
def Booked (h : Host) (c : ToggleCall) (w : World) : Prop :=
  ∀ f, Togglable h c.ctx c.params w f →
    (Auditable h c.params.projectID (w.calls + 4) w.store ↔
      w.store.isOn f.id c.params.environmentID ≠ c.params.enabled)

theorem Booked.flips (h : Host) (c : ToggleCall) (w : World) (hc : c.Booked h w) : c.Flips h w :=
  fun f hf haudit => (hc f hf).mp haudit

end ToggleCall

/-! ## One toggle -/

/-- What a toggle that writes its row makes of the states. -/
theorem isOn_toggled (h : Host) (params : SetEnabledParams) (f : Flag) (w w' : World)
    (r : Except Err Unit) (ht : RowToggled h params f w r w') (flagID environmentID : String) :
    w'.store.isOn flagID environmentID =
      if flagID = f.id ∧ environmentID = params.environmentID then params.enabled
      else w.store.isOn flagID environmentID := by
  rcases ht.written with ⟨s, hset, hstates⟩
  have hfind := setEnabled_find _ _ _ _ _ _ hset flagID environmentID
  unfold Store.isOn Store.enabledAt
  rw [hstates, hfind]
  by_cases hrow : flagID = f.id ∧ environmentID = params.environmentID
  · rw [if_pos hrow, if_pos hrow]
    rfl
  · rw [if_neg hrow, if_neg hrow]

/-- A toggle does nothing; or it writes its row and its event is recorded; or
    the event is lost. -/
theorem ToggleCall.lines_cases (h : Host) (c : ToggleCall) (w : World) :
    ((∀ f, ¬ Togglable h c.ctx c.params w f) ∧ c.lines h w = [] ∧
      ∀ f e, (c.after h w).store.isOn f e = w.store.isOn f e) ∨
    ∃ f, Togglable h c.ctx c.params w f ∧
      (∀ flagID e, (c.after h w).store.isOn flagID e =
        if flagID = f.id ∧ e = c.params.environmentID then c.params.enabled
        else w.store.isOn flagID e) ∧
      ((Auditable h c.params.projectID (w.calls + 4) w.store ∧
          c.lines h w = [⟨(f.id, c.params.environmentID), stateText (!c.params.enabled),
            stateText c.params.enabled⟩]) ∨
        (¬ Auditable h c.params.projectID (w.calls + 4) w.store ∧ c.lines h w = [])) := by
  rcases ends_setEnabled h c.ctx c.params w with ⟨f, hf, ht⟩ | ⟨hnone, _, n, hafter⟩
  · refine .inr ⟨f, hf, isOn_toggled h c.params f w _ _ ht, ?_⟩
    by_cases haudit : Auditable h c.params.projectID (w.calls + 4) w.store
    · rcases (ht.recorded haudit).2 with ⟨actorID, id, now, hlog⟩
      refine .inl ⟨haudit, ?_⟩
      unfold ToggleCall.lines ToggleCall.after
      rw [hlog, List.drop_left]
      cases hon : c.params.enabled <;>
        simp [AuditEntry.event, SetEnabledParams.entry, stateText, hon]
    · refine .inr ⟨haudit, ?_⟩
      unfold ToggleCall.lines ToggleCall.after
      rw [(ht.lost haudit).1]
      simp
  · refine .inl ⟨hnone, ?_, ?_⟩
    · unfold ToggleCall.lines ToggleCall.after
      rw [hafter]
      simp
    · intro f e
      unfold ToggleCall.after
      rw [hafter]

/-- The event of a toggle is true exactly if the toggle changes the value. -/
theorem toldTruly_iff_flips (h : Host) (c : ToggleCall) (w : World) :
    ToldTruly h c w ↔ c.Flips h w := by
  rcases c.lines_cases h w with ⟨hnone, hlines, _⟩ | ⟨f, hf, hstates, hlog⟩
  · constructor
    · intro _ f hf
      exact absurd hf (hnone f)
    · intro _ line hline
      rw [hlines] at hline
      exact absurd hline List.not_mem_nil
  rcases hlog with ⟨haudit, hlines⟩ | ⟨hlost, hlines⟩
  · have hbefore : stateText (!c.params.enabled) = w.stateOf (f.id, c.params.environmentID) ↔
        w.store.isOn f.id c.params.environmentID ≠ c.params.enabled := by
      rw [World.stateOf, stateText_inj]
      cases c.params.enabled <;> cases w.store.isOn f.id c.params.environmentID <;> decide
    constructor
    · intro htold g hg _
      rw [hf.unique _ _ _ _ _ _ hg, ← hbefore]
      exact (htold _ (by rw [hlines]; exact List.mem_cons_self)).1
    · intro hflips line hline
      rw [hlines, List.mem_singleton] at hline
      subst hline
      refine ⟨hbefore.mpr (hflips f hf haudit), ?_⟩
      simp [World.stateOf, hstates]
  · constructor
    · intro _ g _ haudit
      exact absurd haudit hlost
    · intro _ line hline
      rw [hlines] at hline
      exact absurd hline List.not_mem_nil

/-- A toggle that meets the condition is a step the log books. -/
theorem ToggleCall.Booked.books (h : Host) (c : ToggleCall) (w : World) (hc : c.Booked h w) :
    ∃ line, c.lines h w = line.toList ∧
      Ledger.Books World.stateOf w (c.after h w) line := by
  rcases c.lines_cases h w with ⟨_, hlines, hsame⟩ | ⟨f, hf, hstates, hlog⟩
  · refine ⟨none, hlines, fun key => ?_⟩
    simp [World.stateOf, hsame]
  rcases hlog with ⟨haudit, hlines⟩ | ⟨hlost, hlines⟩
  · refine ⟨some _, hlines, ?_⟩
    have htold := (toldTruly_iff_flips h c w).mpr hc.flips _ (by
      rw [hlines]
      exact List.mem_cons_self)
    refine ⟨htold.1, htold.2, fun key hkey => ?_⟩
    have hother : ¬ (key.1 = f.id ∧ key.2 = c.params.environmentID) := by
      rintro ⟨hflag, henv⟩
      exact hkey (Prod.ext hflag henv)
    simp only [World.stateOf, hstates, if_neg hother]
  · -- The event is lost, but the value that was written is the one that was stored.
    have hsame : w.store.isOn f.id c.params.environmentID = c.params.enabled := by
      by_contra hne
      exact hlost ((hc f hf).mpr hne)
    refine ⟨none, hlines, fun key => ?_⟩
    unfold World.stateOf
    rw [hstates]
    by_cases hrow : key.1 = f.id ∧ key.2 = c.params.environmentID
    · rw [if_pos hrow, hrow.1, hrow.2, hsame]
    · rw [if_neg hrow]

/-! ## Runs -/

theorem EachCall.mono (P Q : ToggleCall → World → Prop) (h : Host) (hPQ : ∀ c w, P c w → Q c w)
    (calls : List ToggleCall) (w : World) (hP : EachCall P h calls w) : EachCall Q h calls w := by
  induction calls generalizing w with
  | nil => trivial
  | cons c rest ih => exact ⟨hPQ c w hP.1, ih _ hP.2⟩

/-- The events of a run are true exactly if every call that records one changes
    the value. -/
theorem toldTruly_iff (h : Host) (calls : List ToggleCall) (w : World) :
    EachCall (ToldTruly h) h calls w ↔ EachCall (ToggleCall.Flips h) h calls w := by
  constructor
  · exact EachCall.mono _ _ h (fun c w => (toldTruly_iff_flips h c w).mp) calls w
  · exact EachCall.mono _ _ h (fun c w => (toldTruly_iff_flips h c w).mpr) calls w

/-- A run of booked calls keeps the ledger. -/
theorem EachCall.kept (h : Host) (calls : List ToggleCall) (w : World)
    (hbooked : EachCall (ToggleCall.Booked h) h calls w) :
    Ledger.Kept World.stateOf w (linesOf h calls w) (afterAll h calls w) := by
  induction calls generalizing w with
  | nil => exact .nil w
  | cons c rest ih =>
      rcases hbooked.1.books h c w with ⟨line, hlines, hbooks⟩
      unfold linesOf
      rw [hlines]
      exact .step _ _ _ line _ hbooks (ih _ hbooked.2)

/-- The last event about a flag and an environment tells the state they are
    left in. -/
theorem audit_history_current (h : Host) (calls : List ToggleCall) (w : World)
    (hbooked : EachCall (ToggleCall.Booked h) h calls w) (key : String × String) :
    (afterAll h calls w).stateOf key =
      (((Ledger.about key (linesOf h calls w)).getLast?).map (fun l => l.after)).getD
        (w.stateOf key) :=
  (hbooked.kept h calls w).closing key

/-- The events of a run tell the states before and after their calls exactly if
    every call that records one changes the value. If moreover no call changes
    the value without recording an event, then the events about each flag and
    environment form a chain. -/
theorem audit_history_chains (h : Host) (calls : List ToggleCall) (w : World) :
    (EachCall (ToldTruly h) h calls w ↔ EachCall (ToggleCall.Flips h) h calls w) ∧
      (EachCall (ToggleCall.Booked h) h calls w → EachCall (ToldTruly h) h calls w ∧
        ∀ key, (Ledger.about key (linesOf h calls w)).IsChain
          (fun a b => b.before = a.after)) := by
  refine ⟨toldTruly_iff h calls w, fun hbooked => ⟨?_, fun key => ?_⟩⟩
  · rw [toldTruly_iff]
    exact EachCall.mono _ _ h (fun c w hc => hc.flips h c w) calls w hbooked
  · exact (hbooked.kept h calls w).chain key

/-- A call for the flag of `toggleShop`. -/
def switchDark (enabled : Bool) : ToggleCall :=
  ⟨⟨some ⟨"u1", .editor⟩, none⟩,
    { projectID := "p1", environmentID := "e1", flagKey := "dark", enabled := enabled
      projectSlug := "shop", envSlug := "prod", source := "" }⟩

/-- The flag of `toggleShop`. -/
def darkFlag : Flag :=
  ⟨"f1", "p1", "dark", "Dark mode", .bool, [⟨"true", "On"⟩, ⟨"false", "Off"⟩], "false", 0⟩

/-- A recordable call that changes the value is booked. -/
theorem switchDark_booked (enabled : Bool) (w : World) (f : Flag)
    (hflag : flagByKey ⟨none, false⟩ "p1" "dark" w.store = .ok (f, w.store))
    (haudit : Auditable Host.steady "p1" (w.calls + 4) w.store)
    (hne : w.store.isOn f.id "e1" ≠ enabled) :
    (switchDark enabled).Booked Host.steady w := by
  intro g hg
  have hfound := hg.found
  have hsame : g = f := by
    have heq := hflag.symm.trans hfound
    rw [Except.ok.injEq, Prod.mk.injEq] at heq
    exact heq.1.symm
  rw [hsame]
  exact ⟨fun _ => hne, fun _ => haudit⟩

/-- The flag is switched on and off again. -/
theorem audit_history_chains_on_off :
    EachCall (ToldTruly Host.steady) Host.steady [switchDark true, switchDark false] toggleShop ∧
      ∀ key, (Ledger.about key (linesOf Host.steady [switchDark true, switchDark false]
        toggleShop)).IsChain (fun a b => b.before = a.after) := by
  refine (audit_history_chains Host.steady [switchDark true, switchDark false] toggleShop).2
    ⟨?_, ?_, trivial⟩
  · refine switchDark_booked true toggleShop darkFlag (by decide +kernel) ?_ (by decide +kernel)
    exact ⟨rfl, rfl, ⟨sampleUUID 4, rfl, by decide +kernel⟩, rfl,
      ⟨"p1", "Shop", "shop", 0⟩, by decide +kernel, rfl⟩
  · refine switchDark_booked false _ darkFlag (by decide +kernel) ?_ (by decide +kernel)
    exact ⟨rfl, rfl, ⟨sampleUUID 11, rfl, by decide +kernel⟩, rfl,
      ⟨"p1", "Shop", "shop", 0⟩, by decide +kernel, rfl⟩

/-- A flag that is switched on twice was off twice, by its history. -/
theorem audit_history_repeats :
    ¬ EachCall (ToldTruly Host.steady) Host.steady [switchDark true, switchDark true] toggleShop ∧
      ¬ ∀ key, (Ledger.about key (linesOf Host.steady [switchDark true, switchDark true]
        toggleShop)).IsChain (fun a b => b.before = a.after) := by
  constructor
  · rintro ⟨_, hsecond, _⟩
    have htold := (hsecond ⟨("f1", "e1"), "disabled", "enabled"⟩ (by decide +kernel)).1
    exact absurd htold (by decide +kernel)
  · intro hchains
    have hchain := hchains ("f1", "e1")
    have hlines : Ledger.about ("f1", "e1") (linesOf Host.steady
        [switchDark true, switchDark true] toggleShop) =
        [⟨("f1", "e1"), "disabled", "enabled"⟩, ⟨("f1", "e1"), "disabled", "enabled"⟩] := by
      decide +kernel
    rw [hlines, List.isChain_cons_cons] at hchain
    exact absurd hchain.1 (by decide)

end Cuttlegate
