import Changefeed.Checkpoint.Host
import Changefeed.Proofs.Stream.Silent

/-!
# What failed calls leave of a session

A session stands somewhere: it is in a phase, it has come to a position, and a
position is stored for it (`Standing`). With a silent sink, a call that fails
leaves the session where it stood, if the save that it asks for, should that be
what fails, leaves what is stored as it was (`FailsCleanly`). There is one
exception, when the sink took a change and the store then failed to save it; the
session counts that change as taken (`call_fails`).

A change that fails and is not taken leaves nothing behind but the record of it,
which no call looks at, and the turn of the sink that it used up. So all later
changes end as they would have without it (`advance_forgotten`).
-/

namespace Changefeed

/-- The position that a call has the store save, if it comes to that. -/
def Call.saves? : Call → Option Position
  | .completeSnapshot p | .commit p => some p
  | .advance c => some c.position
  | .beginStreaming _ | .stop => none

/-! ## Where a session stands -/

/-- Where a session stands, for those who ask it. -/
structure Standing where
  phase : Phase
  reached : Position
  stored : Except Fault Position

namespace Session

variable {σ α : Type} [CheckpointStore σ]

/-- Where a session stands. -/
def standing (s : Session σ α) : Standing := ⟨s.phase, s.reached, s.stored⟩

/-- Whether a session stands where another does and has emitted nothing more. -/
structure Unmoved (s t : Session σ α) : Prop where
  standing : t.standing = s.standing
  emitted : t.emitted = s.emitted

/-- Whether all that has happened to a session is that its sink was handed a change and took it, and
that the store was then asked to save it. -/
structure TookOnly (c : Change) (s t : Session σ α) : Prop where
  standing : t.standing = { s.standing with reached := c.position }
  trace : t.trace = s.trace ++
    [.handed c s.stored, .taken c, .saving s.key c.position]

/-- Whether the store, if it now fails to save a position for a session, holds for it afterwards what
it held before. -/
def FailsCleanly (p : Position) (s : Logged (Session σ α)) : Prop :=
  ∀ f u, CheckpointStore.save s.state.key p ⟨s.state.store, s.notices⟩ = .error f u →
    CheckpointStore.load u.state s.state.key = s.state.stored

theorem Unmoved.refl (s : Session σ α) : s.Unmoved s := ⟨rfl, rfl⟩

/-- A change that the sink refuses moves nothing, and one that is not saved is only taken. -/
theorem unmoved_reacted (s : Session σ α) (c : Change) : s.Unmoved (s.reacted c s.phase) :=
  ⟨rfl, s.emitted_reacted c s.phase⟩

theorem tookOnly_settled {s : Session σ α} {c : Change} {store : σ}
    (h : CheckpointStore.load store s.key = s.stored) :
    s.TookOnly c (s.settled c s.phase store) := by
  refine ⟨?_, rfl⟩
  show (⟨s.phase, c.position, CheckpointStore.load store s.key⟩ : Standing) = _
  rw [h]
  rfl

/-! ## Failing calls -/

/-- A save that fails cleanly leaves the session where it stood. -/
theorem save_fails {p : Position} {s t : Logged (Session σ α)} {f : Fault}
    (hclean : FailsCleanly p s) (h : save p s = .error f t) : s.state.Unmoved t.state := by
  rw [save_run, Act.within] at h
  dsimp only at h
  cases hs : CheckpointStore.save s.state.key p ⟨s.state.store, s.notices⟩ with
  | ok a u => rw [hs] at h; cases h
  | error g u =>
    rw [hs] at h
    cases h
    refine ⟨?_, Course.emitted_asked ..⟩
    show (⟨s.state.phase, s.state.reached, CheckpointStore.load u.state s.state.key⟩ : Standing) = _
    rw [hclean _ u hs]
    rfl

theorem completeSnapshot_fails {p : Position} {s t : Logged (Session σ α)} {f : Fault}
    (hclean : FailsCleanly p s) (h : completeSnapshot p s = .error f t) :
    s.state.Unmoved t.state := by
  by_cases hw : s.state.phase = .snapshotting
  · have hrest : completeSnapshot p s = (save p >>= fun _ => enterStreaming p .snapshot) s :=
      Act.bind_of_ok (requireWaiting_of_waiting .completeSnapshot hw)
    rcases Act.bind_eq_error.1 (hrest.symm.trans h) with hsave | ⟨_, u, _, henter⟩
    · exact save_fails hclean hsave
    · cases henter
  · obtain ⟨g, hg⟩ := requireWaiting_of_left .completeSnapshot hw
    cases (Act.bind_of_error hg).symm.trans h
    exact .refl _

theorem beginStreaming_fails {place : Option Position} {s t : Logged (Session σ α)} {f : Fault}
    (h : beginStreaming place s = .error f t) : s.state.Unmoved t.state := by
  rcases beginStreaming_cases place s with ⟨g, hg⟩ | ⟨_, _, _, _, hok⟩
  · cases hg.symm.trans h
    exact .refl _
  · cases hok.symm.trans h

theorem commit_fails {p : Position} {s t : Logged (Session σ α)} {f : Fault}
    (hclean : FailsCleanly p s) (h : commit p s = .error f t) : s.state.Unmoved t.state := by
  rcases commit_cases p s with ⟨_, g, hg⟩ | ⟨_, hsave⟩
  · cases hg.symm.trans h
    exact .refl _
  · exact save_fails hclean (hsave.symm.trans h)

/-- A change that is not taken, or not saved, was refused by the session, or by the sink, or the
store failed to save it. -/
theorem advance_fails {s t : Logged (Session σ Change)} (hs : s.state.Silent) {c : Change} {f : Fault}
    (h : advance c s = .error f t) :
    t = s ∨ t = ⟨s.state.reacted c s.state.phase, s.notices⟩
      ∨ ∃ u, CheckpointStore.save s.state.key c.position ⟨s.state.store, s.notices⟩ = .error f u
        ∧ t = ⟨s.state.settled c s.state.phase u.state, u.notices⟩ := by
  rw [advance_silent hs] at h
  cases hr : s.state.refusal? c with
  | some g =>
    rw [hr] at h
    cases h
    exact .inl rfl
  | none =>
    rw [hr] at h
    dsimp only at h
    cases hk : s.state.sink with
    | none => rw [hk] at h; cases h
    | some k =>
      rw [hk] at h
      dsimp only at h
      cases hf : k.next.fault? with
      | some g =>
        rw [hf] at h
        cases h
        exact .inr (.inl rfl)
      | none =>
        rw [hf] at h
        dsimp only at h
        cases hsave : CheckpointStore.save s.state.key c.position ⟨s.state.store, s.notices⟩ with
        | ok a u => rw [hsave] at h; cases h
        | error g u =>
          rw [hsave] at h
          cases h
          exact .inr (.inr ⟨u, rfl, rfl⟩)

/-- **A call that fails** leaves the session where it stood, unless its sink took the change. -/
theorem call_fails {s t : Logged (Session σ Change)} (hs : s.state.Silent) {k : Call} {f : Fault}
    (hclean : ∀ p, k.saves? = some p → FailsCleanly p s) (h : call k s = .error f t) :
    s.state.Unmoved t.state ∨ ∃ c, k = .advance c ∧ s.state.TookOnly c t.state := by
  cases k with
  | completeSnapshot p => exact .inl (completeSnapshot_fails (hclean p rfl) h)
  | beginStreaming place => exact .inl (beginStreaming_fails h)
  | advance c =>
    rcases advance_fails hs h with rfl | rfl | ⟨u, hsave, rfl⟩
    · exact .inl (.refl _)
    · exact .inl (unmoved_reacted _ c)
    · exact .inr ⟨c, rfl, tookOnly_settled (hclean c.position rfl _ u hsave)⟩
  | commit p => exact .inl (commit_fails (hclean p rfl) h)
  | stop =>
    obtain ⟨ns, hok⟩ := stop_run s
    cases hok.symm.trans h

/-! ## As if it had never been offered -/

/-- The session with another record. -/
def withTrace (s : Session σ α) (tr : List Event) : Session σ α := { s with trace := tr }

/-- Whether two sessions differ at most in their records. -/
def Alike (s t : Logged (Session σ α)) : Prop := ∃ tr, t = ⟨s.state.withTrace tr, s.notices⟩

/-- Taking a change does not look at what is on record. -/
theorem advance_alike {s t : Logged (Session σ Change)} (hs : s.state.Silent) (h : Alike s t)
    (c : Change) : (advance c).result s = (advance c).result t
      ∧ ((advance c).after s).state.Silent ∧ Alike ((advance c).after s) ((advance c).after t) := by
  obtain ⟨tr, rfl⟩ := h
  have ht : (s.state.withTrace tr).Silent := hs
  have hrun := advance_silent hs c
  have hrun' := advance_silent (s := ⟨s.state.withTrace tr, s.notices⟩) ht c
  have hrefusal : (s.state.withTrace tr).refusal? c = s.state.refusal? c := rfl
  have hsink : (s.state.withTrace tr).sink = s.state.sink := rfl
  have hsave : CheckpointStore.save (s.state.withTrace tr).key c.position
      ⟨(s.state.withTrace tr).store, s.notices⟩ =
        CheckpointStore.save s.state.key c.position ⟨s.state.store, s.notices⟩ := rfl
  unfold Act.result Act.after
  dsimp only at hrun'
  -- none of what the run branches on is the record
  rw [hrefusal, hsink, hsave] at hrun'
  rw [hrun, hrun']
  cases s.state.refusal? c with
  | some f => exact ⟨rfl, hs, tr, rfl⟩
  | none =>
    dsimp only
    cases s.state.sink with
    | none => exact ⟨rfl, fun k hk => (by cases hk), tr, rfl⟩
    | some k =>
      dsimp only
      cases k.next.fault? with
      | some f => exact ⟨rfl, hs.of_advanced rfl, _, rfl⟩
      | none =>
        dsimp only
        cases CheckpointStore.save s.state.key c.position ⟨s.state.store, s.notices⟩ with
        | ok a u => exact ⟨rfl, hs.of_advanced rfl, _, rfl⟩
        | error f u => exact ⟨rfl, hs.of_advanced rfl, _, rfl⟩

/-- What has become of the sink of a session. -/
def SinkAdvances (s t : Session σ α) : Prop := t.sink = s.sink ∨ t.sink = s.sink.map Sink.advance

/-- **A change that is not taken is forgotten**: what comes after it ends as it would have if only
the sink had had its turn. -/
theorem advance_forgotten {s t : Logged (Session σ Change)} (hs : s.state.Silent) {c : Change}
    {f : Fault} (h : advance c s = .error f t) (hnot : t.state.emitted = s.state.emitted)
    (later : List Change) : s.state.SinkAdvances t.state
      ∧ Act.results advance t later =
        Act.results advance ⟨{ s.state with sink := t.state.sink }, s.notices⟩ later := by
  have hresults : ∀ {u : Logged (Session σ Change)}, u.state.Silent → Alike u t →
      Act.results advance t later = Act.results advance u later := fun hu halike =>
    (Act.results_congr (R := fun s t => s.state.Silent ∧ Alike s t)
      (fun c s t hst => advance_alike hst.1 hst.2 c) later ⟨hu, halike⟩).symm
  rcases advance_fails hs h with rfl | rfl | ⟨u, _, rfl⟩
  · exact ⟨.inl rfl, rfl⟩
  · exact ⟨.inr rfl, hresults (hs.of_advanced rfl) ⟨_, rfl⟩⟩
  · rw [emitted_settled] at hnot
    exact absurd hnot (by simp)

end Session

end Changefeed
