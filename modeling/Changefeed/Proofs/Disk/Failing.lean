import Changefeed.Proofs.Disk.Staging

/-!
# Which call fails

A file is replaced by up to four calls, and the first of them that fails ends the
replacement. Which one that is can be read off the disk beforehand (`failing?`):
a call fails because it was planned to, or because of what is on the disk. If it
is one of the first three nothing is replaced, if it is the last one, that forces
the directory to the medium, everything is replaced already (`replace_run`).
-/

namespace Changefeed

/-- The calls by which a file is replaced, in their order. -/
inductive FileCall where
  | stage
  | syncFile
  | rename
  | syncDirectory
deriving DecidableEq

namespace Disk

variable {d : Disk} {p : Path} {l : Location} {text : String} {s : Logged Disk}

/-- The call that fails when the file at a path is replaced, if one does. -/
def failing? (d : Disk) (p : Path) (durable : Bool) : Option FileCall :=
  if d.refusesStage p then some .stage
  else if durable && d.plan.sync.headD false then some .syncFile
  else if d.refusesRename p then some .rename
  else if durable && d.plan.sync.tail.headD false then some .syncDirectory
  else none

/-! ## The whole replacement -/

/-- A call that is followed by discarding the staged file if it fails. -/
theorem discarding_run (act : Act Disk Unit) (l : Location) (s : Logged Disk) :
    act.onFault (fun _ => .update fun d => d.remove l) s = match act s with
      | .ok a t => .ok a t
      | .error f t => .error f ⟨t.state.remove l, t.notices⟩ := by
  unfold Act.onFault
  cases act s <;> rfl

/-- What becomes of a replacement when the given call is the one that fails. -/
def Outcome (d : Disk) (p : Path) (text : String) (r : EStateM.Result Fault (Logged Disk) Unit) :
    Option FileCall → Prop
  | none => ∃ t, r = .ok () t ∧ Replaced d p text t.state
  | some .syncDirectory => ∃ f t, r = .error f t ∧ Replaced d p text t.state
  | some _ => ∃ f t, r = .error f t ∧ t.state.nodes = d.nodes

theorem Outcome.early {r : EStateM.Result Fault (Logged Disk) Unit} {step : FileCall}
    (h : Outcome d p text r (some step)) (hstep : step ≠ .syncDirectory) :
    ∃ f t, r = .error f t ∧ t.state.nodes = d.nodes := by
  cases step with
  | syncDirectory => exact absurd rfl hstep
  | _ => exact h

/-- What is left to do once a file is staged, and forced to the medium if it has to be. -/
theorem Staged.finish (h : Staged d l text s.state) (hplan : s.state.plan.rename = d.plan.rename)
    (p : Path) (durable : Bool) :
    Outcome d p text
      (((Disk.rename l p).onFault (fun _ => .update fun d => d.remove l) >>= fun _ =>
        if durable = true then sync else pure ()) s)
      (if d.refusesRename p then some .rename
        else if durable && s.state.plan.sync.headD false then some .syncDirectory
        else none) := by
  rw [Act.bind_run, discarding_run]
  rw [← h.refusesRename hplan]
  rcases h.rename_run p with ⟨hrefuses, f, u, hu, hstaged⟩ | ⟨hrefuses, u, hu, hr, hsync⟩
  · rw [hu, if_pos hrefuses]
    exact ⟨f, _, rfl, hstaged.discard⟩
  · rw [hu, ← hsync]
    simp only [hrefuses, Bool.false_eq_true, if_false]
    cases durable with
    | false => exact ⟨u, rfl, hr⟩
    | true =>
      rw [if_pos rfl, sync_run]
      have hr' : Replaced d p text u.state.synced := ⟨hr.1, hr.2.1, hr.2.2⟩
      cases u.state.plan.sync.headD false with
      | true => exact ⟨_, _, rfl, hr'⟩
      | false => exact ⟨_, rfl, hr'⟩

/-- **Replacing a file** ends as the disk has it in store for its calls. -/
theorem replace_run (p : Path) (text : String) (durable : Bool) (s : Logged Disk) :
    Outcome s.state p text (replace p text durable s) (s.state.failing? p durable) := by
  unfold failing?
  rcases stage_run p text s with ⟨hrefuses, f, t, ht, hsame⟩ | ⟨hrefuses, l, t, ht, h, hsync, hrename⟩
  · have hrun : replace p text durable s = .error f t := Act.bind_of_error ht
    rw [hrun, if_pos hrefuses]
    exact ⟨f, t, rfl, hsame⟩
  rw [if_neg (by simp [hrefuses])]
  cases durable with
  | false =>
    have hrun : replace p text false s = ((Disk.rename l p).onFault
        (fun _ => .update fun d => d.remove l) >>= fun _ =>
          if false = true then sync else pure ()) t := Act.bind_of_ok ht
    rw [hrun]
    have hfinish := h.finish hrename p false
    rwa [Bool.false_and] at hfinish
  | true =>
    have hrun : replace p text true s = (sync.onFault (fun _ => .update fun d => d.remove l) >>=
        fun _ => (Disk.rename l p).onFault (fun _ => .update fun d => d.remove l) >>= fun _ =>
          if true = true then sync else pure ()) t := Act.bind_of_ok ht
    rw [hrun, Act.bind_run, discarding_run, sync_run, ← hsync]
    have hsynced : Staged s.state l text t.state.synced := ⟨h.1, h.2⟩
    cases hfirst : t.state.plan.sync.headD false with
    | true => exact ⟨_, _, rfl, hsynced.discard⟩
    | false => exact hsynced.finish (s := ⟨t.state.synced, t.notices⟩) hrename p true

end Disk

end Changefeed
