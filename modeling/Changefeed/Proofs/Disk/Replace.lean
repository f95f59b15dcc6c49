import Changefeed.Proofs.Disk.Staging
import Changefeed.Proofs.Steps

/-!
# Replacing a file

A file that is replaced holds what it held before or the whole new text, whatever
fails and wherever the replacement is cut off (`replacement`). Nothing else on the
disk changes, but for the staged file while it is there; it lies where nothing was.
-/

namespace Changefeed.Disk

variable {d d' : Disk} {p : Path} {l : Location} {text : String} {s t u : Logged Disk}

/-! ## Calls with a staged file on the disk -/

/-- A staged file that is renamed replaces the other file. -/
theorem Staged.rename (h : Staged d l text s.state) :
    (∃ f u, Disk.rename l p s = .error f u ∧ Staged d l text u.state)
      ∨ ∃ u, Disk.rename l p s = .ok () u ∧ Replaced d p text u.state := by
  rcases h.rename_run p with ⟨_, f, u, hu, hstaged⟩ | ⟨_, u, hu, hr, _⟩
  · exact .inl ⟨f, u, hu, hstaged⟩
  · exact .inr ⟨u, hu, hr⟩

/-- Forcing something to the medium leaves what is on the disk alone. -/
theorem sync_cases (s : Logged Disk) :
    ∃ t, t.state.nodes = s.state.nodes ∧ ((∃ f, sync s = .error f t) ∨ sync s = .ok () t) := by
  rw [sync_run]
  refine ⟨⟨s.state.synced, s.notices⟩, rfl, ?_⟩
  split
  · exact .inl ⟨_, rfl⟩
  · exact .inr rfl

/-- Steps, on a disk with a staged file, that either do something and keep to `Q` or discard it. -/
structure Attempt (d : Disk) (l : Location) (text : String) (Q : Disk → Prop) (x : Steps Disk Unit)
    (u : Logged Disk) : Prop where
  ends : (∃ f v, x.act u = .error f v ∧ v.state.nodes = d.nodes) ∨ ∃ v, x.act u = .ok () v ∧ Q v.state
  between : ∀ t, x.passes u t → t.state.nodes = d.nodes ∨ Staged d l text t.state ∨ Q t.state

/-- What is done about a staged file depends on how the call ends. -/
theorem discarding_act (act : Act Disk Unit) (l : Location) (u : Logged Disk) :
    ((Steps.one act).onFault fun _ => Steps.one (Act.update fun d => d.remove l)).act u =
      match act u with
      | .ok a v => .ok a v
      | .error f v => .error f ((Act.update fun d => d.remove l).after v) := by
  unfold Steps.onFault Steps.one Act.onFault
  dsimp only
  cases act u <;> rfl

/-- A call that fails with the staged file in place is followed by discarding it. -/
theorem Attempt.of_call {act : Act Disk Unit} {Q : Disk → Prop} (hu : Staged d l text u.state)
    (h : (∃ f v, act u = .error f v ∧ Staged d l text v.state) ∨ ∃ v, act u = .ok () v ∧ Q v.state) :
    Attempt d l text Q
      ((Steps.one act).onFault fun _ => Steps.one (Act.update fun d => d.remove l)) u := by
  have hrun := discarding_act act l u
  rcases h with ⟨f, v, hv, hstaged⟩ | ⟨v, hv, hQ⟩
  · rw [hv] at hrun
    refine ⟨.inl ⟨f, _, hrun, hstaged.discard⟩, ?_⟩
    rintro t ((rfl | rfl) | ⟨g, w, hw, rfl | rfl⟩)
    · exact .inr (.inl hu)
    · rw [Act.after_of_error hv]
      exact .inr (.inl hstaged)
    · cases hv.symm.trans hw
      exact .inr (.inl hstaged)
    · cases hv.symm.trans hw
      exact .inl hstaged.discard
  · rw [hv] at hrun
    refine ⟨.inr ⟨v, hrun, hQ⟩, ?_⟩
    rintro t ((rfl | rfl) | ⟨g, w, hw, _⟩)
    · exact .inr (.inl hu)
    · rw [Act.after_of_ok hv]
      exact .inr (.inr hQ)
    · cases hv.symm.trans hw

/-! ## Replacing as a whole -/

/-- How a replacement ends, and what can be found of it in between. -/
structure Replacement (d : Disk) (p : Path) (text : String) (x : Steps Disk Unit) (u : Logged Disk) :
    Prop where
  ends : (∃ f v, x.act u = .error f v ∧ v.state.nodes = d.nodes)
    ∨ ∃ v, (x.act u = .ok () v ∨ ∃ f, x.act u = .error f v) ∧ Replaced d p text v.state
  between : ∀ t, x.passes u t →
    t.state.nodes = d.nodes ∨ (∃ l, Staged d l text t.state) ∨ Replaced d p text t.state

theorem Replacement.bind {x : Steps Disk Unit} {k : Unit → Steps Disk Unit} {Q : Disk → Prop}
    (hx : Attempt d l text Q x u) (hk : ∀ v : Logged Disk, Q v.state → Replacement d p text (k ()) v)
    (hQ : ∀ d', Q d' → (∃ l, Staged d l text d') ∨ Replaced d p text d') :
    Replacement d p text (x >>= k) u := by
  constructor
  · rcases hx.ends with ⟨f, v, hv, hsame⟩ | ⟨v, hv, hq⟩
    · exact .inl ⟨f, v, Act.bind_of_error hv, hsame⟩
    · have hrun : (x >>= k).act u = (k ()).act v := Act.bind_of_ok hv
      rw [hrun]
      exact (hk v hq).ends
  · rintro t (ht | ⟨_, v, hv, ht⟩)
    · rcases hx.between t ht with h | h | h
      · exact .inl h
      · exact .inr (.inl ⟨l, h⟩)
      · exact .inr (hQ _ h)
    · rcases hx.ends with ⟨f, w, hw, _⟩ | ⟨w, hw, hq⟩
      · cases hw.symm.trans hv
      · cases hw.symm.trans hv
        exact (hk _ hq).between t ht

/-- Once the staged file is renamed, at most the directory is forced to the medium. -/
theorem Replacement.of_replaced (h : Replaced d p text u.state) :
    Replacement d p text (pure ()) u ∧ Replacement d p text (Steps.one sync) u := by
  obtain ⟨v, hv, hr⟩ := sync_cases u
  have hafter : sync.after u = v := by
    rcases hr with ⟨f, hr⟩ | hr
    · exact Act.after_of_error hr
    · exact Act.after_of_ok hr
  have hv' : Replaced d p text v.state := ⟨h.1, h.2.1, hv.trans h.2.2⟩
  refine ⟨⟨.inr ⟨u, .inl rfl, h⟩, ?_⟩, ⟨.inr ⟨v, hr.symm, hv'⟩, ?_⟩⟩
  · rintro t rfl
    exact .inr (.inr h)
  · rintro t (rfl | rfl)
    · exact .inr (.inr h)
    · rw [hafter]
      exact .inr (.inr hv')

theorem Replacement.of_staged (hu : Staged d l text u.state) {k : Unit → Steps Disk Unit}
    (hk : k () = pure () ∨ k () = Steps.one sync) :
    Replacement d p text
      ((Steps.one (Disk.rename l p)).onFault (fun _ => Steps.one (Act.update fun d => d.remove l)) >>= k)
      u := by
  refine .bind (.of_call hu hu.rename) (fun v hv => ?_) fun _ hv => .inr hv
  rcases hk with hk | hk <;> rw [hk]
  · exact (of_replaced hv).1
  · exact (of_replaced hv).2

/-- Replacing a file, step by step. -/
def replaceSteps (p : Path) (text : String) (durable : Bool) : Steps Disk Unit := do
  let staged ← Steps.one (stage p text)
  let discard := fun _ => Steps.one (Act.update fun d => d.remove staged)
  if durable then (Steps.one sync).onFault discard
  (Steps.one (rename staged p)).onFault discard
  if durable then Steps.one sync

theorem replaceSteps_act (p : Path) (text : String) (durable : Bool) :
    (replaceSteps p text durable).act = replace p text durable := by
  cases durable <;> rfl

/--
**A file is replaced as a whole or not at all.** However the replacement ends and
wherever it is cut off, the disk is as it was, or a staged file is on it besides
(only in between), or the file holds the new text.
-/
theorem replacement (p : Path) (text : String) (durable : Bool) (s : Logged Disk) :
    Replacement s.state p text (replaceSteps p text durable) s := by
  -- staging comes first in either mode, and nothing is on the disk until it goes well
  have hbind : ∀ {k : Location → Steps Disk Unit},
      (∀ l (u : Logged Disk), Staged s.state l text u.state → Replacement s.state p text (k l) u) →
      Replacement s.state p text (Steps.one (stage p text) >>= k) s := by
    intro k hk
    rcases stage_run p text s with ⟨_, f, t, ht, hsame⟩ | ⟨_, l, t, ht, hstaged, _⟩
    · refine ⟨.inl ⟨f, t, Act.bind_of_error ht, hsame⟩, ?_⟩
      rintro u ((rfl | rfl) | ⟨_, v, hv, _⟩)
      · exact .inl rfl
      · rw [Act.after_of_error ht]
        exact .inl hsame
      · cases ht.symm.trans hv
    · have hrun : (Steps.one (stage p text) >>= k).act s = (k l).act t := Act.bind_of_ok ht
      refine ⟨hrun ▸ (hk l t hstaged).ends, ?_⟩
      rintro u ((rfl | rfl) | ⟨_, v, hv, hu⟩)
      · exact .inl rfl
      · rw [Act.after_of_ok ht]
        exact .inr (.inl ⟨l, hstaged⟩)
      · cases ht.symm.trans hv
        exact (hk _ _ hstaged).between u hu
  cases durable with
  | false => exact hbind fun l u hu => .of_staged hu (.inl rfl)
  | true =>
    -- a durable replacement forces the staged file to the medium before it is renamed
    refine hbind fun l u hu => .bind (Q := Staged s.state l text) (.of_call hu ?_)
      (fun v hv => .of_staged hv (.inr rfl)) fun d' hd => .inl ⟨l, hd⟩
    obtain ⟨v, hv, ⟨f, hr⟩ | hr⟩ := sync_cases u
    · exact .inl ⟨f, v, hr, hu.1, hv.trans hu.2⟩
    · exact .inr ⟨v, hr, hu.1, hv.trans hu.2⟩

/-! ## What it can fail with -/

section Faults

variable {P : Fault → Prop} (hsystem : ∀ c, P (.system c)) (hargument : ∀ c, P (.argument c))

include hsystem hargument

theorem locate_error {f : Fault} (h : d.locate p = .error f) : P f := by
  have hfold : ∀ (names : List String) (l : Location), names.foldlM d.step l = .error f → P f := by
    intro names
    induction names with
    | nil => intro l h; cases h
    | cons name names ih =>
      intro l h
      rw [List.foldlM_cons] at h
      cases hs : d.step l name with
      | ok k =>
        rw [hs] at h
        exact ih k h
      | error g =>
        rw [hs] at h
        cases h
        unfold step at hs
        split at hs
        · cases hs; exact hsystem _
        · cases hs; exact hsystem _
        · split at hs <;> cases hs
          exact hsystem _
  unfold locate at h
  split at h
  · cases h; exact hargument _
  split at h
  · cases h; exact hsystem _
  · exact hfold _ _ h

/-- **A replacement fails** because of the system or because of the path, and of nothing else. -/
theorem replace_failsWith (p : Path) (text : String) (durable : Bool) :
    Act.FailsWith P (replace p text durable) := by
  have hplanned : ∀ plan, Act.FailsWith P (planned plan) := by
    intro plan
    unfold planned
    split
    · exact .fail (hsystem _)
    · exact .pure ()
  have hlocate : ∀ (d : Disk) (p : Path),
      Act.FailsWith P (Act.ofExcept (d.locate p) : Act Disk Location) := fun d p =>
    .ofExcept fun f => locate_error hsystem hargument
  have hstage : Act.FailsWith P (stage p text) :=
    .bind .state fun _ => .bind (.update _) fun _ => .bind (hplanned _) fun _ =>
      .bind (hlocate _ _) fun _ => .bind (.update _) fun _ => .pure _
  have hsync : Act.FailsWith P sync :=
    .bind .state fun _ => .bind (.update _) fun _ => hplanned _
  have hrename : ∀ l, Act.FailsWith P (rename l p) := by
    intro l
    refine .bind .state fun d => .bind (.update _) fun _ => .bind (hplanned _) fun _ =>
      .bind (hlocate _ _) fun k => ?_
    split
    · exact .fail (hsystem _)
    · exact .fail (hsystem _)
    · exact .update _
  have hdiscard : ∀ l, ∀ _ : Fault, Act.FailsWith P (Act.update fun d : Disk => d.remove l) :=
    fun l _ => .update _
  refine .bind hstage fun l => ?_
  cases durable with
  | false => exact .bind (.onFault (hrename l) (hdiscard l)) fun _ => .pure ()
  | true =>
    exact .bind (.onFault hsync (hdiscard l)) fun _ =>
      .bind (.onFault (hrename l) (hdiscard l)) fun _ => hsync

end Faults

end Changefeed.Disk
