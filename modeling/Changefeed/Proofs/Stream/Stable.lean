import Changefeed.Proofs.Stream.Calls

/-!
# What survives every call

A sink that is not quiet may call back into the session that is handing it a
change, and the change it offers may be handed to a sink that calls back again.
The calls nest without bound, but each of them is made of the same few moves. A
property of sessions that survives each of these moves is *stable*, and survives
every call, however deep it nests and however it ends.
-/

namespace Changefeed.Session

variable {σ : Type} [CheckpointStore σ]

/-- A property of sessions that survives every single move that calls are made of. -/
structure Stable (P : Session σ Change → Prop) : Prop where
  /-- The session goes to another position or phase. -/
  moved : ∀ s p ph, P s → P { s with reached := p, phase := ph }
  /-- The sink goes on to its next reaction. -/
  sink : ∀ s k, P s → P { s with sink := k }
  /-- The sink is handed a change. -/
  handed : ∀ s c, P s → P { s with trace := s.trace ++ [.handed c s.stored] }
  /-- The sink took a change. -/
  taken : ∀ s c, P s → P { s with trace := s.trace ++ [.taken c] }
  /-- The store was asked to save a position, which may have failed. -/
  asked : ∀ (s : Logged (Session σ Change)) p, P s.state →
    P { s.state with trace := s.state.trace ++ [.saving s.state.key p], store := savedStore p s }

namespace Stable

variable {P : Session σ Change → Prop}

theorem save (h : Stable P) (p : Position) : Act.Keeps P (Session.save p) := by
  intro s hs
  rw [save_after]
  exact h.asked s p hs

theorem enterStreaming (h : Stable P) (p : Position) (o : Origin) :
    Act.Keeps P (Session.enterStreaming p o) :=
  .bind (.update fun s hs => h.moved s p .streaming hs) fun _ => .bind .state fun _ => .note _

omit [CheckpointStore σ] in
theorem requireWaiting (t : Transition) : Act.Keeps P (Session.requireWaiting t) := by
  refine .bind .state fun s => ?_
  cases s.phase with
  | snapshotting => exact .pure ()
  | streaming => exact .fail _
  | stopped => exact .fail _

theorem completeSnapshot (h : Stable P) (p : Position) :
    Act.Keeps P (Session.completeSnapshot p) :=
  .bind (requireWaiting _) fun _ => .bind (h.save p) fun _ => h.enterStreaming p _

theorem beginStreaming (h : Stable P) (place : Option Position) :
    Act.Keeps P (Session.beginStreaming place) := by
  refine .bind (requireWaiting _) fun _ => ?_
  cases place with
  | some p => exact h.enterStreaming p _
  | none => exact .bind .state fun _ => .bind (.ofExcept _) fun p => h.enterStreaming p _

theorem stop (h : Stable P) : Act.Keeps P (Session.stop (σ := σ)) := by
  refine .bind .state fun s => ?_
  split
  · exact .pure ()
  · exact .bind (.update fun s hs => h.moved s s.reached .stopped hs) fun _ => .note _

omit [CheckpointStore σ] in
theorem requireNext (c : Change) : Act.Keeps P (Session.requireNext c) := by
  refine .bind .state fun s => ?_
  cases s.refusal? c with
  | some f => exact .fail f
  | none => exact .pure ()

theorem settle (h : Stable P) (c : Change) : Act.Keeps P (Session.settle c) :=
  .bind (.update fun s hs => h.moved s c.position s.phase hs) fun _ => h.save c.position

theorem deliver (h : Stable P) {hand : Change → Act (Session σ Change) Unit}
    (hh : ∀ c, Act.Keeps P (hand c)) (c : Change) : Act.Keeps P (Session.deliver hand c) :=
  .bind (requireNext c) fun _ => .bind (hh c) fun _ => h.settle c

theorem handOver (h : Stable P) {react : Change → Act (Session σ Change) Unit}
    (hr : ∀ c, Act.Keeps P (react c)) (c : Change) : Act.Keeps P (Session.handOver react c) := by
  refine .bind ?_ fun _ => .bind (hr c) fun _ => .update fun s hs => h.taken s c hs
  -- what the store holds is read right before it goes on record
  intro s hs
  exact h.handed s.state c hs

/-- **A reaction keeps what is stable**, however deep its offers nest. -/
theorem carryOut (h : Stable P) (r : Reaction Change) :
    ∀ c, Act.Keeps P (r.carryOut callbacks c) := by
  induction r with
  | accept => exact fun _ => .pure ()
  | refuse f => exact fun _ => .fail f
  | stop next ih => exact fun c => .bind h.stop fun _ => ih c
  | completeSnapshot next ih => exact fun c => .bind (h.completeSnapshot _) fun _ => ih c
  | offer more inner next ihInner ihNext =>
    intro c
    exact .bind (.outcome (h.deliver (h.handOver ihInner) more)) fun ended => ihNext ended c

theorem nextReaction (h : Stable P) : Act.Keeps P (Session.nextReaction (σ := σ) (α := Change)) := by
  refine .bind .state fun s => ?_
  cases s.sink with
  | none => exact .pure _
  | some k => exact .bind (.update fun s hs => h.sink s _ hs) fun _ => .pure _

theorem advance (h : Stable P) (c : Change) : Act.Keeps P (Session.advance c) := by
  refine .bind .state fun s => ?_
  cases s.sink with
  | none =>
    exact .bind (requireNext c) fun _ => .update fun s hs => h.moved s c.position s.phase hs
  | some k =>
    exact h.deliver (h.handOver fun c => .bind h.nextReaction fun r => h.carryOut r c) c

theorem commit (h : Stable P) (p : Position) : Act.Keeps P (Session.commit (α := Change) p) := by
  refine .bind .state fun s => ?_
  split
  · exact .fail _
  · exact h.save p

/-- **Every call keeps what is stable.** -/
theorem call (h : Stable P) (k : Call) : Act.Keeps P (Session.call k) := by
  cases k with
  | completeSnapshot p => exact h.completeSnapshot p
  | beginStreaming place => exact h.beginStreaming place
  | advance c => exact h.advance c
  | commit p => exact h.commit p
  | stop => exact h.stop

end Stable

end Changefeed.Session
