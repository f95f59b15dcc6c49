import Changefeed.Proofs.Stream.Failures

/-!
# Sessions in lockstep

Two sessions on stores of their own are called alike. To know that each call ends
alike in both it is enough to know this of the few moves that calls are made of:
that the two stand in the same place, move along together, and have the same luck
with saving (`Lockstep`). If the two are to take changes as well, they must have
the same sink and put the same on record (`Tandem`); then a call ends alike however
deep the sink calls back.
-/

namespace Changefeed.Session

variable {σ τ : Type} [CheckpointStore σ] [CheckpointStore τ]

/-- Sessions that go the same way and save with the same success. -/
structure Lockstep (R : Logged (Session σ Change) → Logged (Session τ Change) → Prop) : Prop where
  key : ∀ s t, R s t → t.state.key = s.state.key
  standing : ∀ s t, R s t → t.state.standing = s.state.standing
  reach : ∀ s t p, R s t →
    R ⟨{ s.state with reached := p }, s.notices⟩ ⟨{ t.state with reached := p }, t.notices⟩
  enter : ∀ s t ph, R s t →
    R ⟨{ s.state with phase := ph }, s.notices⟩ ⟨{ t.state with phase := ph }, t.notices⟩
  note : ∀ s t n, R s t → R ⟨s.state, s.notices ++ [n]⟩ ⟨t.state, t.notices ++ [n]⟩
  save : ∀ p, Act.Matches R (Session.save p) (Session.save p)

variable {R : Logged (Session σ Change) → Logged (Session τ Change) → Prop}
  {s : Logged (Session σ Change)} {t : Logged (Session τ Change)}

namespace Lockstep

theorem phase (h : Lockstep R) (hr : R s t) : t.state.phase = s.state.phase :=
  congrArg Standing.phase (h.standing s t hr)

theorem reached (h : Lockstep R) (hr : R s t) : t.state.reached = s.state.reached :=
  congrArg Standing.reached (h.standing s t hr)

theorem stored (h : Lockstep R) (hr : R s t) : t.state.stored = s.state.stored :=
  congrArg Standing.stored (h.standing s t hr)

theorem requireWaiting (h : Lockstep R) (k : Transition) :
    Act.Matches R (Session.requireWaiting k) (Session.requireWaiting k) := by
  refine .state_bind fun s t hr => ?_
  rw [h.phase hr, h.key s t hr]
  cases s.state.phase with
  | snapshotting => exact Act.Matches.pure () s t hr
  | streaming => exact Act.Matches.fail _ s t hr
  | stopped => exact Act.Matches.fail _ s t hr

theorem enterStreaming (h : Lockstep R) (p : Position) (o : Origin) :
    Act.Matches R (Session.enterStreaming p o) (Session.enterStreaming p o) := by
  intro s t hr
  have hafter : (Session.enterStreaming p o).after t =
      ⟨{ t.state with reached := p, phase := .streaming },
        t.notices ++ [.streaming s.state.key p o]⟩ := by
    rw [← h.key s t hr]
    rfl
  rw [hafter]
  exact ⟨rfl, h.note _ _ _ (h.enter _ _ .streaming (h.reach s t p hr))⟩

theorem completeSnapshot (h : Lockstep R) (p : Position) :
    Act.Matches R (Session.completeSnapshot p) (Session.completeSnapshot p) :=
  .bind (h.requireWaiting _) fun _ => .bind (h.save p) fun _ => h.enterStreaming p _

theorem beginStreaming (h : Lockstep R) (place : Option Position) :
    Act.Matches R (Session.beginStreaming place) (Session.beginStreaming place) := by
  refine .bind (h.requireWaiting _) fun _ => ?_
  cases place with
  | some p => exact h.enterStreaming p .resume
  | none =>
    refine .state_bind fun s t hr => ?_
    rw [h.stored hr]
    exact Act.Matches.bind (.ofExcept _) (fun p => h.enterStreaming p .resume) s t hr

theorem commit (h : Lockstep R) (p : Position) :
    Act.Matches R (Session.commit p) (Session.commit p) := by
  refine .state_bind fun s t hr => ?_
  rw [h.reached hr, h.key s t hr]
  split
  · exact Act.Matches.fail _ s t hr
  · exact h.save p s t hr

theorem stop (h : Lockstep R) : Act.Matches R Session.stop Session.stop := by
  refine .state_bind fun s t hr => ?_
  have hstopped : t.state.isStopped = s.state.isStopped := by
    unfold Session.isStopped
    rw [h.phase hr]
  rw [hstopped, h.key s t hr, h.phase hr, h.reached hr]
  split
  · exact Act.Matches.pure () s t hr
  · exact ⟨rfl, h.note _ _ _ (h.enter s t .stopped hr)⟩

end Lockstep

/-! ## Taking changes -/

/-- Sessions in lockstep with one sink, that put the same on record. -/
structure Tandem (R : Logged (Session σ Change) → Logged (Session τ Change) → Prop) : Prop
    extends Lockstep R where
  sink : ∀ s t, R s t → t.state.sink = s.state.sink
  /-- The sink goes on to its next reaction in both. -/
  turn : ∀ s t k, R s t →
    R ⟨{ s.state with sink := k }, s.notices⟩ ⟨{ t.state with sink := k }, t.notices⟩
  record : ∀ s t e, R s t → R ⟨{ s.state with trace := s.state.trace ++ [e] }, s.notices⟩
    ⟨{ t.state with trace := t.state.trace ++ [e] }, t.notices⟩

namespace Tandem

theorem requireNext (h : Tandem R) (c : Change) :
    Act.Matches R (Session.requireNext c) (Session.requireNext c) := by
  refine .state_bind fun s t hr => ?_
  have hrefusal : t.state.refusal? c = s.state.refusal? c := by
    unfold Session.refusal?
    rw [h.phase hr, h.key s t hr, h.reached hr]
  rw [hrefusal]
  cases s.state.refusal? c with
  | some f => exact Act.Matches.fail f s t hr
  | none => exact Act.Matches.pure () s t hr

theorem settle (h : Tandem R) (c : Change) :
    Act.Matches R (Session.settle c) (Session.settle c) :=
  .bind (.update fun s t hr => h.reach s t c.position hr) fun _ => h.save c.position

theorem deliver (h : Tandem R) {hand : Change → Act (Session σ Change) Unit}
    {hand' : Change → Act (Session τ Change) Unit} (hh : ∀ c, Act.Matches R (hand c) (hand' c))
    (c : Change) : Act.Matches R (Session.deliver hand c) (Session.deliver hand' c) :=
  .bind (h.requireNext c) fun _ => .bind (hh c) fun _ => h.settle c

theorem handOver (h : Tandem R) {react : Change → Act (Session σ Change) Unit}
    {react' : Change → Act (Session τ Change) Unit}
    (hreact : ∀ c, Act.Matches R (react c) (react' c)) (c : Change) :
    Act.Matches R (Session.handOver react c) (Session.handOver react' c) := by
  refine .bind ?_ fun _ => .bind (hreact c) fun _ => fun s t hr => ⟨rfl, h.record s t _ hr⟩
  -- both stores hold the same when the change goes on record as handed over
  refine .state_bind fun s t hr => ?_
  rw [h.stored hr]
  exact Act.Matches.update (fun s t hr => h.record s t _ hr) s t hr

/-- **A reaction is carried out alike**, however deep its offers nest. -/
theorem carryOut (h : Tandem R) (r : Reaction Change) :
    ∀ c, Act.Matches R (r.carryOut callbacks c) (r.carryOut callbacks c) := by
  induction r with
  | accept => exact fun _ => .pure ()
  | refuse f => exact fun _ => .fail f
  | stop next ih => exact fun c => .bind h.stop fun _ => ih c
  | completeSnapshot next ih => exact fun c => .bind (h.completeSnapshot _) fun _ => ih c
  | offer more inner next ihInner ihNext =>
    intro c
    exact .bind (.outcome (h.deliver (h.handOver ihInner) more)) fun ended => ihNext ended c

theorem nextReaction (h : Tandem R) :
    Act.Matches R (Session.nextReaction (α := Change)) Session.nextReaction := by
  refine .state_bind fun s t hr => ?_
  rw [h.sink s t hr]
  cases s.state.sink with
  | none => exact Act.Matches.pure _ s t hr
  | some k =>
    exact Act.Matches.bind (.update fun s t hr => h.turn s t _ hr) (fun _ => .pure _) s t hr

theorem advance (h : Tandem R) (c : Change) :
    Act.Matches R (Session.advance c) (Session.advance c) := by
  refine .state_bind fun s t hr => ?_
  rw [h.sink s t hr]
  cases s.state.sink with
  | none =>
    have hreach : Act.Matches R (Session.reach c.position) (Session.reach c.position) :=
      .update fun s t hr => h.reach s t c.position hr
    exact Act.Matches.bind (h.requireNext c) (fun _ => hreach) s t hr
  | some k =>
    exact h.deliver (h.handOver fun c => .bind h.nextReaction fun r => h.carryOut r c) c s t hr

/-- **Every call ends alike** in both. -/
theorem call (h : Tandem R) (k : Call) : Act.Matches R (Session.call k) (Session.call k) := by
  cases k with
  | completeSnapshot p => exact h.completeSnapshot p
  | beginStreaming place => exact h.beginStreaming place
  | advance c => exact h.advance c
  | commit p => exact h.commit p
  | stop => exact h.stop

end Tandem

end Changefeed.Session
