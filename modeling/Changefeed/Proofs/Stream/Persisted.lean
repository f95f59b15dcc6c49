import Changefeed.Proofs.Checkpoint.Calls
import Changefeed.Proofs.Stream.Stable

/-!
# How far the stored position runs

A store only ever moves a position forward, also when a new snapshot begins at a
place behind the one it still holds from an earlier life. So what is stored is
the furthest of what was there and of all that was saved since, and a stream
whose snapshot lies behind the old position stays behind what is stored until
it has caught up. Whoever resumes from the store in the meantime resumes too
far.

`accounted_afterCalls` is the exact account, for every sink; `persisted_iff` draws
the line between the two cases.
-/

namespace Changefeed

/-- The position of an event, if it is that the store was asked to save it. -/
def Event.asked? : Event → Option Position
  | saving _ p => some p
  | _ => none

namespace Session

variable {σ : Type} [CheckpointStore σ]

/-- The positions that the store was asked to save after a session had the given record. -/
def askedSince (tr : List Event) (s : Session σ Change) : List Position :=
  (s.trace.drop tr.length).filterMap Event.asked?

/-- What is stored is the furthest of `q` and all that the store was asked to save since. -/
structure Accounted (key : Text) (tr : List Event) (q : Position) (s : Session σ Change) :
    Prop where
  key : s.key = key
  record : tr <+: s.trace
  stored : s.stored = .ok ((s.askedSince tr).foldl max q)

omit [CheckpointStore σ] in
theorem askedSince_append {tr : List Event} {s : Session σ Change} (h : tr <+: s.trace)
    (e : Event) :
    ((s.trace ++ [e]).drop tr.length).filterMap Event.asked? =
      s.askedSince tr ++ [e].filterMap Event.asked? := by
  rw [List.drop_append_of_le_length h.length_le, List.filterMap_append]
  rfl

/-- **The account is kept by every move**, whatever the sink does. -/
theorem stable_accounted [Furthest σ] (key : Text) (tr : List Event) (q : Position) :
    Stable (σ := σ) (Accounted key tr q) where
  moved s p ph h := ⟨h.key, h.record, h.stored⟩
  sink s k h := ⟨h.key, h.record, h.stored⟩
  handed s p h := by
    refine ⟨h.key, h.record.trans (List.prefix_append _ _), ?_⟩
    show s.stored = .ok (List.foldl max q (((s.trace ++ [_]).drop _).filterMap _))
    rw [askedSince_append h.record, List.foldl_append]
    exact h.stored
  taken s p h := by
    refine ⟨h.key, h.record.trans (List.prefix_append _ _), ?_⟩
    show s.stored = .ok (List.foldl max q (((s.trace ++ [_]).drop _).filterMap _))
    rw [askedSince_append h.record, List.foldl_append]
    exact h.stored
  asked s p h := by
    refine ⟨h.key, h.record.trans (List.prefix_append _ _), ?_⟩
    show CheckpointStore.load (savedStore p s) s.state.key =
      .ok (List.foldl max q (((s.state.trace ++ [_]).drop _).filterMap _))
    rw [askedSince_append h.record, List.foldl_append]
    exact Furthest.load_save s.state.key p _ ⟨s.state.store, s.notices⟩ h.stored

theorem accounted_afterCalls [Furthest σ] {key : Text} {tr : List Event} {q : Position}
    {l : Logged (Session σ Change)} (h : Accounted key tr q l.state) (calls : List Call) :
    Accounted key tr q (afterCalls l calls).state := by
  induction calls generalizing l with
  | nil => exact h
  | cons k rest ih => exact ih ((stable_accounted key tr q).call k l h)

/-! ## With a quiet sink -/

/-- A session that has left for streaming and has come as far as all that it asked to save. -/
structure Led (tr : List Event) (s : Session σ Change) : Prop where
  /-- If there is a sink, it is quiet. -/
  sink : ∀ k, s.sink = some k → k.Quiet
  left : s.phase ≠ .snapshotting
  record : tr <+: s.trace
  asked : ∀ p ∈ s.askedSince tr, p ≤ s.reached

omit [CheckpointStore σ] in
/-- A session that goes no way back leads still, if it asked for nothing beyond where it is. -/
theorem Led.extend {tr : List Event} {s s' : Session σ Change} (h : Led tr s) (es : List Event)
    (hs : ∀ k, s'.sink = some k → k.Quiet) (hp : s'.phase ≠ .snapshotting)
    (ht : s'.trace = s.trace ++ es) (hr : s.reached ≤ s'.reached)
    (ha : ∀ p ∈ es.filterMap Event.asked?, p ≤ s'.reached) : Led tr s' := by
  refine ⟨hs, hp, by rw [ht]; exact h.record.trans (List.prefix_append _ _), ?_⟩
  intro p hp
  unfold askedSince at hp
  rw [ht, List.drop_append_of_le_length h.record.length_le, List.filterMap_append] at hp
  rcases List.mem_append.1 hp with hp | hp
  · exact (h.asked p hp).trans hr
  · exact ha p hp

theorem Led.completeSnapshot {tr : List Event} {l : Logged (Session σ Change)}
    (h : Led tr l.state) (p : Position) :
    Led tr ((call (.completeSnapshot p)).after l).state := by
  obtain ⟨f, hf⟩ : ∃ f, call (.completeSnapshot p) l = .error f l := by
    rcases completeSnapshot_cases p l with ⟨_, h'⟩ | ⟨h', _⟩ | ⟨h', _⟩
    · exact h'
    · exact absurd h' h.left
    · exact absurd h' h.left
  rw [Act.after_of_error hf]
  exact h

theorem Led.beginStreaming {tr : List Event} {l : Logged (Session σ Change)}
    (h : Led tr l.state) (place : Option Position) :
    Led tr ((call (.beginStreaming place)).after l).state := by
  obtain ⟨f, hf⟩ : ∃ f, call (.beginStreaming place) l = .error f l := by
    rcases beginStreaming_cases place l with h' | ⟨h', _⟩
    · exact h'
    · exact absurd h' h.left
  rw [Act.after_of_error hf]
  exact h

theorem Led.advance {tr : List Event} {l : Logged (Session σ Change)} (h : Led tr l.state)
    (c : Change) : Led tr ((call (.advance c)).after l).state := by
  show Led tr ((Session.advance c).after l).state
  cases hk : l.state.sink with
  | none =>
    rcases advance_without_sink hk c with ⟨f, _, hf⟩ | ⟨hp, hlt, hok⟩
    · rw [Act.after_of_error hf]
      exact h
    · rw [Act.after_of_ok hok]
      exact h.extend [] h.sink h.left (by simp) (le_of_lt hlt) (by simp)
  | some k =>
    have hq := h.sink k hk
    rcases advance_cases hk hq c with ⟨f, _, hf⟩ | ⟨hp, hlt, ph, ns, hph, ⟨f, hf⟩ | hsv⟩
    · rw [Act.after_of_error hf]
      exact h
    · rw [Act.after_of_error hf]
      refine h.extend [.handed c l.state.stored] ?_ ?_ rfl le_rfl ?_
      · rintro _ ⟨⟩
        exact hq.advance
      · rcases hph with rfl | rfl <;> simp
      · simp [Event.asked?]
    · rw [Act.after_congr hsv, save_after]
      refine h.extend [.handed c l.state.stored, .taken c,
        .saving l.state.key c.position] ?_ ?_ ?_ (le_of_lt hlt) ?_
      · rintro _ ⟨⟩
        exact hq.advance
      · rcases hph with rfl | rfl <;> simp
      · simp [taken, handed]
      · -- the one position it asked to save is the one it has just come to
        intro p hp
        simp only [Event.asked?, List.filterMap_cons, List.filterMap_nil,
          List.mem_singleton] at hp
        exact le_of_eq hp

theorem Led.commit {tr : List Event} {l : Logged (Session σ Change)} (h : Led tr l.state)
    (p : Position) : Led tr ((call (.commit p)).after l).state := by
  show Led tr ((Session.commit p).after l).state
  rcases commit_cases p l with ⟨_, f, hf⟩ | ⟨hle, hsv⟩
  · rw [Act.after_of_error hf]
    exact h
  · rw [Act.after_congr hsv, save_after]
    refine h.extend [.saving l.state.key p] h.sink h.left rfl le_rfl ?_
    -- only a position within what the stream has come to is handed on
    intro x hx
    simp only [Event.asked?, List.filterMap_cons, List.filterMap_nil, List.mem_singleton] at hx
    rw [hx]
    exact not_lt.1 hle

theorem Led.stop {tr : List Event} {l : Logged (Session σ Change)} (h : Led tr l.state) :
    Led tr ((call .stop).after l).state := by
  obtain ⟨ns, hs⟩ := stop_run l
  rw [Act.after_of_ok (show call .stop l = _ from hs)]
  exact h.extend [] h.sink (by simp) (by simp) le_rfl (by simp)

/-- **Every call keeps the lead.** -/
theorem led_call {tr : List Event} {l : Logged (Session σ Change)} (h : Led tr l.state)
    (k : Call) : Led tr ((call k).after l).state := by
  cases k with
  | completeSnapshot p => exact h.completeSnapshot p
  | beginStreaming place => exact h.beginStreaming place
  | advance c => exact h.advance c
  | commit p => exact h.commit p
  | stop => exact h.stop

theorem led_afterCalls {tr : List Event} {l : Logged (Session σ Change)} (h : Led tr l.state)
    (calls : List Call) : Led tr (afterCalls l calls).state := by
  induction calls generalizing l with
  | nil => exact h
  | cons k rest ih => exact ih (led_call h k)

/-! ## After a snapshot -/

/--
**When what is stored keeps behind the stream.**

Completing a snapshot at `p`, with `q` stored before, leaves the further of the
two stored; so it is `p` exactly when the old position was no further. In every
later state, the stored position is within what the stream has come to exactly
when the old one is and everything saved since is. The latter is always so when
the sink is quiet, and then the old position alone decides.
-/
theorem persisted_iff {q p : Position} {s t : Logged (Session Host Change)}
    (hq : s.state.stored = .ok q) (hok : completeSnapshot p s = .ok () t) :
    (t.state.stored = .ok (max q p) ∧ t.state.reached = p)
      ∧ (t.state.stored = .ok p ↔ q ≤ p)
      ∧ ∀ calls, let u := (afterCalls t calls).state
        ∃ r, u.stored = .ok r
          ∧ (r ≤ u.reached ↔
              q ≤ u.reached ∧ ∀ x ∈ u.askedSince s.state.trace, x ≤ u.reached)
          ∧ ((∀ k, s.state.sink = some k → k.Quiet) → (r ≤ u.reached ↔ q ≤ u.reached)) := by
  have hacc : Accounted s.state.key s.state.trace q s.state :=
    ⟨rfl, List.prefix_refl _, by simpa [askedSince] using hq⟩
  -- the account is opened when the snapshot completes, with what was stored till then
  have hacct : Accounted s.state.key s.state.trace q t.state := by
    have h := (stable_accounted s.state.key s.state.trace q).call (.completeSnapshot p) s hacc
    rwa [Act.after_of_ok (show call (.completeSnapshot p) s = _ from hok)] at h
  have ht : t.state = { s.state with
      reached := p, phase := .streaming
      trace := s.state.trace ++ [.saving s.state.key p], store := savedStore p s } := by
    rcases completeSnapshot_cases p s with ⟨_, f, hf⟩ | ⟨_, f, ns, hf⟩ | ⟨_, ns, hs⟩
    · rw [hf] at hok; cases hok
    · rw [hf] at hok; cases hok
    · rw [hs] at hok
      cases hok
      rfl
  have hasked : t.state.askedSince s.state.trace = [p] := by
    rw [ht]
    simp [askedSince, Event.asked?]
  have hst : t.state.stored = .ok (max q p) := by
    rw [hacct.stored, hasked]
    rfl
  refine ⟨⟨hst, by rw [ht]⟩, ?_, ?_⟩
  · rw [hst, Except.ok.injEq]
    exact max_eq_right_iff
  intro calls u
  have hu : Accounted s.state.key s.state.trace q u := accounted_afterCalls hacct calls
  refine ⟨_, hu.stored, foldl_max_le, ?_⟩
  intro hquiet
  rw [foldl_max_le]
  refine and_iff_left ?_
  have hled : Led s.state.trace t.state := by
    refine ⟨by rw [ht]; exact hquiet, by rw [ht]; simp, hacct.record, ?_⟩
    rw [hasked, ht]
    intro x hx
    exact le_of_eq (List.mem_singleton.1 hx)
  exact (led_afterCalls hled calls).asked

/-- A snapshot taken at 100 while the store still holds 500 from an earlier life: the stream stands
at 100, and 500 stays stored. -/
theorem snapshot_behind_stored :
    let store : MemoryStore := ⟨Keyed.empty.insert "s" 500⟩
    let s : Logged (Session Host Change) := ⟨waiting "s" ⟨.empty, .memory store⟩ none, []⟩
    s.state.phase = .snapshotting ∧ s.state.stored = .ok (.known 500)
      ∧ ∃ t, completeSnapshot (.known 100) s = .ok () t ∧ t.state.stored = .ok (.known 500)
        ∧ t.state.reached = .known 100 := by
  refine ⟨rfl, rfl, _, rfl, rfl, rfl⟩

/-- One taken beyond what is stored: the stored position moves with it, and stays within reach while
a change is taken and the store is asked again to save an old position. -/
theorem snapshot_beyond_stored :
    let store : MemoryStore := ⟨Keyed.empty.insert "s" 5⟩
    let k : Sink Change := ⟨[.stop .accept], .accept⟩
    let s : Logged (Session Host Change) := ⟨waiting "s" ⟨.empty, .memory store⟩ (some k), []⟩
    let calls := [.advance ⟨"t", .insert, .known 12, [], none, some []⟩, .commit (.known 7)]
    ∃ t, completeSnapshot (.known 10) s = .ok () t ∧ t.state.stored = .ok (.known 10)
      ∧ ∃ r, (afterCalls t calls).state.stored = .ok r
        ∧ (r ≤ (afterCalls t calls).state.reached ↔
          .known 5 ≤ (afterCalls t calls).state.reached) := by
  intro store k s calls
  have hq : s.state.stored = .ok (.known 5) := rfl
  obtain ⟨t, ht⟩ : ∃ t, completeSnapshot (.known 10) s = .ok () t := ⟨_, rfl⟩
  obtain ⟨⟨_, _⟩, hiff, hrun⟩ := persisted_iff hq ht
  obtain ⟨r, hr, _, hquiet⟩ := hrun calls
  refine ⟨t, ht, hiff.2 (by decide), r, hr, hquiet ?_⟩
  rintro _ ⟨⟩
  exact ⟨by simp [k, Reaction.Quiet], trivial⟩

end Session

end Changefeed
