import Changefeed.Proofs.Stream.Stable
import Mathlib.Data.List.Pairwise

/-!
# What one life of a stream emits

In one life, from opening to its end, a stream emits positions in strictly
ascending order, all of them beyond the position at which it began to stream.
That position is not part of a session: once a change was taken, nothing in the
session remembers where it started. The ghost `Course.installed` does, and it is
what the emitted positions are chained to.

`Ascending` is the invariant: the installed position and the emitted ones make
one ascending chain, and the session stands at the end of it.
-/

namespace Changefeed

/-- The change that the sink took, if an event is that it took one. -/
def Event.change? : Event → Option Change
  | taken c => some c
  | _ => none

/-- The position of an event, if it is that the sink took a change. -/
def Event.taken? (e : Event) : Option Position := e.change?.map (·.position)

/-- The changes that the sink took, oldest first. -/
def Session.published {σ α : Type} (s : Session σ α) : List Change := s.trace.filterMap Event.change?

/-- The positions of the changes that the sink took, oldest first. -/
def Session.emitted {σ α : Type} (s : Session σ α) : List Position := s.trace.filterMap Event.taken?

theorem Session.emitted_eq {σ α : Type} (s : Session σ α) :
    s.emitted = s.published.map (·.position) := by
  unfold emitted published
  rw [List.map_filterMap]
  rfl

/-- That the store was asked to save publishes nothing. -/
theorem Session.published_asked {σ α : Type} (s : Session σ α) (key : Text) (p : Position) :
    (s.trace ++ [Event.saving key p]).filterMap Event.change? = s.published := by
  simp [published, Event.change?]

/-- A session in its course, and the position installed when it began to stream, once it has. -/
structure Course (σ : Type) where
  log : Logged (Session σ Change)
  installed : Option Position

namespace Course

variable {σ : Type} [CheckpointStore σ]

/-- The position that a call installs if it ends normally. -/
def installs (s : Session σ Change) : Call → Option Position
  | .completeSnapshot p => some p
  | .beginStreaming place => (s.startOf place).toOption
  | .advance _ | .commit _ | .stop => none

/-- The course of a session that has just been opened, with or without a snapshot to wait for. -/
def opened (awaitSnapshot : Bool) (log : Logged (Session σ Change)) : Course σ :=
  ⟨log, if awaitSnapshot then none else log.state.stored.toOption⟩

/-- The course after one more call. What was installed first stays. -/
def step (w : Course σ) (k : Call) : Course σ :=
  match Session.call k w.log with
  | .ok _ t => ⟨t, w.installed <|> installs w.log.state k⟩
  | .error _ t => ⟨t, w.installed⟩

/-- The course after some calls, whichever of them fail. -/
def run (w : Course σ) (calls : List Call) : Course σ := calls.foldl step w

/-- The position that the stream has come to. -/
def reached (w : Course σ) : Position := w.log.state.reached

/-- The positions that the stream has emitted. -/
def emitted (w : Course σ) : List Position := w.log.state.emitted

/-! ## The invariant -/

/-- The installed position and the emitted ones ascend, and the session stands at their end. -/
structure Ascending (w : Course σ) : Prop where
  /-- There is a sink, and it is quiet. -/
  sink : ∃ k, w.log.state.sink = some k ∧ k.Quiet
  /-- A session that waits has installed nothing. -/
  waiting : w.log.state.phase = .snapshotting → w.installed = none
  /-- A session that streams has. -/
  streaming : w.log.state.phase = .streaming → w.installed.isSome
  /-- Nothing is emitted before a position is installed. -/
  idle : w.installed = none → w.reached = .null ∧ w.emitted = []
  /-- What is emitted ascends from the installed position. -/
  chain : ∀ q, w.installed = some q →
    (q :: w.emitted).Pairwise (· < ·) ∧ w.reached = (q :: w.emitted).getLast (by simp)

theorem ascending_opened {S : Type} {key : Text} {store : σ} {k : Sink Change}
    {awaitSnapshot : Bool} {l t : Logged S} {s : Session σ Change} {ns : List Notice}
    (h : Session.openOn key store (some k) awaitSnapshot l = .ok s t) (hk : k.Quiet) :
    Ascending (opened awaitSnapshot ⟨s, ns⟩) := by
  rcases Session.openOn_cases h with ⟨rfl, rfl⟩ | ⟨rfl, p, hp, rfl⟩
  · exact ⟨⟨k, rfl, hk⟩, fun _ => rfl, fun h => (by cases h), fun _ => ⟨rfl, rfl⟩,
      fun _ h => (by cases h)⟩
  · have hi : (opened false ⟨{ Session.waiting key store (some k) with
        reached := p, phase := .streaming }, ns⟩).installed = some p := by
      show (CheckpointStore.load store key).toOption = some p
      rw [hp]; rfl
    refine ⟨⟨k, rfl, hk⟩, fun h => (by cases h), fun _ => (by rw [hi]; rfl), ?_, ?_⟩
    · intro h; rw [hi] at h; cases h
    · intro q hq
      rw [hi] at hq
      cases hq
      exact ⟨List.pairwise_singleton _ _, rfl⟩

omit [CheckpointStore σ] in
/-- A course that emits nothing and stands where it stood stays in order, also if it is stopped. -/
theorem Ascending.frame {w w' : Course σ} (h : Ascending w)
    (hs : ∃ k, w'.log.state.sink = some k ∧ k.Quiet)
    (hp : w'.log.state.phase = w.log.state.phase ∨ w'.log.state.phase = .stopped)
    (hr : w'.reached = w.reached) (he : w'.emitted = w.emitted)
    (hi : w'.installed = w.installed) : Ascending w' := by
  refine ⟨hs, ?_, ?_, by rw [hi, hr, he]; exact h.idle, ?_⟩
  · intro hw
    rcases hp with hp | hp
    · rw [hi]; exact h.waiting (hp ▸ hw)
    · rw [hp] at hw; cases hw
  · intro hw
    rcases hp with hp | hp
    · rw [hi]; exact h.streaming (hp ▸ hw)
    · rw [hp] at hw; cases hw
  · intro q hq
    simp only [hr, he]
    exact h.chain q (hi ▸ hq)

/-! ## One call -/

omit [CheckpointStore σ] in
/-- That the store was asked to save is not an emission. -/
theorem emitted_asked {α : Type} (s : Session σ α) (key : Text) (p : Position) :
    (s.trace ++ [Event.saving key p]).filterMap Event.taken? = s.emitted := by
  simp [Session.emitted, Event.taken?, Event.change?]

/-- Nor is that the sink was handed a change. -/
theorem emitted_handed (s : Session σ Change) (k : Sink Change) (c : Change) :
    (s.handed k c).emitted = s.emitted := by
  simp [Session.emitted, Session.handed, Event.taken?, Event.change?]

theorem emitted_taken (s : Session σ Change) (k : Sink Change) (c : Change) :
    (s.taken k c).emitted = s.emitted ++ [c.position] := by
  rw [← emitted_handed s k c]
  simp [Session.emitted, Session.taken, Event.taken?, Event.change?]

theorem step_of_ok {w : Course σ} {k : Call} {t : Logged (Session σ Change)}
    (h : Session.call k w.log = .ok () t) :
    w.step k = ⟨t, w.installed <|> installs w.log.state k⟩ := by
  unfold step; rw [h]

theorem step_of_error {w : Course σ} {k : Call} {f : Fault} {t : Logged (Session σ Change)}
    (h : Session.call k w.log = .error f t) : w.step k = ⟨t, w.installed⟩ := by
  unfold step; rw [h]

/-- After a call that installs nothing, all that counts is the state that it leaves. -/
theorem step_of_installs {w : Course σ} {k : Call} (h : installs w.log.state k = none) :
    w.step k = ⟨(Session.call k).after w.log, w.installed⟩ := by
  cases hc : Session.call k w.log with
  | ok a t => rw [step_of_ok hc, Act.after_of_ok hc, h]; cases w.installed <;> rfl
  | error f t => rw [step_of_error hc, Act.after_of_error hc]

omit [CheckpointStore σ] in
/-- Leaving for streaming at `p` starts the chain with `p`. -/
theorem Ascending.enter {w w' : Course σ} (h : Ascending w) {p : Position}
    (hw : w.log.state.phase = .snapshotting) (hs : w'.log.state.sink = w.log.state.sink)
    (hp : w'.log.state.phase = .streaming) (hr : w'.reached = p) (he : w'.emitted = w.emitted)
    (hi : w'.installed = (w.installed <|> some p)) : Ascending w' := by
  -- a session that waits has no position installed yet, so this one is
  have hn := h.waiting hw
  rw [hn] at hi
  have hi : w'.installed = some p := hi
  have he : w'.emitted = [] := he.trans (h.idle hn).2
  refine ⟨by rw [hs]; exact h.sink, ?_, fun _ => by rw [hi]; rfl, ?_, ?_⟩
  · intro hx; rw [hp] at hx; cases hx
  · intro hx; rw [hi] at hx; cases hx
  · intro q hq
    rw [hi] at hq
    cases hq
    simp [he, hr]

omit [CheckpointStore σ] in
/-- Taking a change beyond where the session stands lengthens the chain by it. -/
theorem Ascending.take {w w' : Course σ} (h : Ascending w) {p : Position}
    (hw : w.log.state.phase = .streaming) (hlt : w.reached < p)
    (hs : ∃ k, w'.log.state.sink = some k ∧ k.Quiet)
    (hp : w'.log.state.phase = .streaming ∨ w'.log.state.phase = .stopped)
    (hr : w'.reached = p) (he : w'.emitted = w.emitted ++ [p])
    (hi : w'.installed = w.installed) : Ascending w' := by
  have hin := h.streaming hw
  refine ⟨hs, ?_, fun _ => by rw [hi]; exact hin, ?_, ?_⟩
  · intro hx
    rcases hp with hp | hp <;> · rw [hp] at hx; cases hx
  · intro hx; rw [← hi, hx] at hin; cases hin
  · intro q hq
    obtain ⟨hpw, hlast⟩ := h.chain q (hi ▸ hq)
    have hcat : q :: w'.emitted = (q :: w.emitted) ++ [p] := by rw [he]; rfl
    refine ⟨?_, by simp only [hcat, hr, List.getLast_append, List.getLast_singleton]; rfl⟩
    rw [hcat]
    refine List.pairwise_append.2 ⟨hpw, List.pairwise_singleton _ _, ?_⟩
    intro x hx y hy
    rw [List.mem_singleton.1 hy]
    -- everything in an ascending chain is at most its end, where the session stands
    refine lt_of_le_of_lt ?_ hlt
    rw [hlast]
    exact (hpw.imp le_of_lt).rel_getLast hx

theorem Ascending.completeSnapshot {w : Course σ} (h : Ascending w) (p : Position) :
    Ascending (w.step (.completeSnapshot p)) := by
  rcases Session.completeSnapshot_cases p w.log with ⟨_, f, hf⟩ | ⟨_, f, ns, hf⟩ | ⟨hp, ns, hok⟩
  · rw [step_of_error (k := .completeSnapshot p) hf]
    exact h
  · -- the store failed, so the session still waits; only the record tells that it was asked
    rw [step_of_error (k := .completeSnapshot p) hf]
    exact h.frame h.sink (.inl rfl) rfl (emitted_asked ..) rfl
  · rw [step_of_ok (k := .completeSnapshot p) hok]
    exact h.enter hp rfl rfl rfl (emitted_asked ..) rfl

theorem Ascending.beginStreaming {w : Course σ} (h : Ascending w) (place : Option Position) :
    Ascending (w.step (.beginStreaming place)) := by
  rcases Session.beginStreaming_cases place w.log with ⟨f, hf⟩ | ⟨hp, p, ns, hs, hok⟩
  · rw [step_of_error (k := .beginStreaming place) hf]
    exact h
  · rw [step_of_ok (k := .beginStreaming place) hok]
    refine h.enter hp rfl rfl rfl rfl ?_
    rw [installs, hs]
    rfl

theorem Ascending.advance {w : Course σ} (h : Ascending w) (c : Change) :
    Ascending (w.step (.advance c)) := by
  obtain ⟨snk, hsnk, hq⟩ := h.sink
  rw [step_of_installs rfl]
  show Ascending ⟨(Session.advance c).after w.log, w.installed⟩
  rcases Session.advance_cases hsnk hq c with
    ⟨f, _, hf⟩ | ⟨hp, hlt, ph, ns, hph, ⟨f, hf⟩ | hsv⟩
  · rw [Act.after_of_error hf]
    exact h
  · -- handed over, but not taken: all that may have happened is that the sink stopped the stream
    rw [Act.after_of_error hf]
    refine h.frame ⟨snk.advance, rfl, hq.advance⟩ ?_ rfl (emitted_handed _ snk c) rfl
    rcases hph with rfl | rfl
    · exact .inl hp.symm
    · exact .inr rfl
  · -- taken: whether the save fails does not show in what the session stands at
    have ha := Session.save_after c.position ⟨{ w.log.state.taken snk c with phase := ph }, ns⟩
    rw [← Act.after_congr hsv] at ha
    refine h.take hp hlt ⟨snk.advance, ?_, hq.advance⟩ ?_ ?_ ?_ rfl
    · show ((Session.advance c).after w.log).state.sink = _
      rw [ha]; rfl
    · show ((Session.advance c).after w.log).state.phase = _ ∨ _
      rw [ha]; exact hph
    · show ((Session.advance c).after w.log).state.reached = _
      rw [ha]; rfl
    · show ((Session.advance c).after w.log).state.emitted = _
      rw [ha]
      exact (emitted_asked ..).trans (emitted_taken ..)

theorem Ascending.commit {w : Course σ} (h : Ascending w) (p : Position) :
    Ascending (w.step (.commit p)) := by
  rw [step_of_installs rfl]
  show Ascending ⟨(Session.commit p).after w.log, w.installed⟩
  rcases Session.commit_cases p w.log with ⟨_, f, hf⟩ | ⟨_, hsv⟩
  · rw [Act.after_of_error hf]
    exact h
  · have ha := Session.save_after p w.log
    rw [← Act.after_congr hsv] at ha
    refine h.frame ?_ (.inl ?_) ?_ ?_ rfl
    · show ∃ k, ((Session.commit p).after w.log).state.sink = some k ∧ _
      rw [ha]; exact h.sink
    · show ((Session.commit p).after w.log).state.phase = _
      rw [ha]
    · show ((Session.commit p).after w.log).state.reached = _
      rw [ha]; rfl
    · show ((Session.commit p).after w.log).state.emitted = _
      rw [ha]; exact emitted_asked ..

theorem Ascending.stop {w : Course σ} (h : Ascending w) : Ascending (w.step .stop) := by
  rw [step_of_installs rfl]
  obtain ⟨ns, hs⟩ := Session.stop_run w.log
  rw [Act.after_of_ok (show Session.call .stop w.log = _ from hs)]
  exact h.frame h.sink (.inr rfl) rfl rfl rfl

/-- **Every call keeps the order**, whichever way it ends. -/
theorem ascending_step {w : Course σ} (h : Ascending w) (k : Call) : Ascending (w.step k) := by
  cases k with
  | completeSnapshot p => exact h.completeSnapshot p
  | beginStreaming place => exact h.beginStreaming place
  | advance c => exact h.advance c
  | commit p => exact h.commit p
  | stop => exact h.stop

theorem ascending_run {w : Course σ} (h : Ascending w) (calls : List Call) :
    Ascending (w.run calls) := by
  induction calls generalizing w with
  | nil => exact h
  | cons k rest ih => exact ih (ascending_step h k)

/-! ## Where the session stands -/

/-- That some positions were emitted first stays so, whatever is called. -/
theorem stable_emitted (es : List Position) :
    Session.Stable fun s : Session σ Change => es <+: s.emitted where
  moved _ _ _ h := h
  sink _ _ h := h
  handed s c h := by
    show es <+: (s.trace ++ [Event.handed c s.stored]).filterMap Event.taken?
    rw [List.filterMap_append]
    exact h.trans (List.prefix_append _ _)
  taken s c h := by
    show es <+: (s.trace ++ [Event.taken c]).filterMap Event.taken?
    rw [List.filterMap_append]
    exact h.trans (List.prefix_append _ _)
  asked s p h := by
    show es <+: (s.state.trace ++ [Event.saving s.state.key p]).filterMap Event.taken?
    rwa [emitted_asked]

theorem step_log (w : Course σ) (k : Call) : (w.step k).log = (Session.call k).after w.log := by
  cases h : Session.call k w.log with
  | ok a t => rw [step_of_ok h, Act.after_of_ok h]
  | error f t => rw [step_of_error h, Act.after_of_error h]

/-- Once something is installed, it stays, and no call leads back. -/
theorem step_forward {w : Course σ} (h : Ascending w) (hi : w.installed.isSome) (k : Call) :
    (w.step k).installed = w.installed ∧ w.reached ≤ (w.step k).reached := by
  obtain ⟨q, hq⟩ := Option.isSome_iff_exists.1 hi
  have hinst : (w.step k).installed = w.installed := by
    unfold step
    split
    · rw [hq]; rfl
    · rfl
  refine ⟨hinst, ?_⟩
  obtain ⟨_, hlast⟩ := h.chain q hq
  obtain ⟨hpw', hlast'⟩ := (ascending_step h k).chain q (hinst.trans hq)
  rw [hlast, hlast']
  -- the chain before the call is a prefix of the one after it, so its end lies in the latter
  have hpre : w.emitted <+: (w.step k).emitted := by
    show w.emitted <+: (w.step k).log.state.emitted
    rw [step_log]
    exact (stable_emitted w.emitted).call k w.log (List.prefix_refl _)
  obtain ⟨es, hes⟩ := hpre
  refine (hpw'.imp le_of_lt).rel_getLast ?_
  rw [← hes, ← List.cons_append]
  exact List.mem_append_left _ (List.getLast_mem _)

theorem run_forward {w : Course σ} (h : Ascending w) (hi : w.installed.isSome)
    (calls : List Call) :
    (w.run calls).installed = w.installed ∧ w.reached ≤ (w.run calls).reached := by
  induction calls generalizing w with
  | nil => exact ⟨rfl, le_rfl⟩
  | cons k rest ih =>
    obtain ⟨h1, h2⟩ := step_forward h hi k
    obtain ⟨h3, h4⟩ := ih (ascending_step h k) (h1 ▸ hi)
    exact ⟨h3.trans h1, h2.trans h4⟩

/-! ## The whole life -/

/--
**One life emits in order, and stands at the last emission.**

For every store, every quiet sink and every sequence of calls, however many of
them fail: what is emitted is known, ascends, and lies beyond the installed
position; the session stands at the null position until one is installed, and
from then on at the last emission or, if there is none yet, at what was
installed; and once that is so, no further call leads back.
-/
theorem emitted_ascends {S : Type} {key : Text} {store : σ} {k : Sink Change}
    {awaitSnapshot : Bool} {l t : Logged S} {s : Session σ Change}
    (hopen : Session.openOn key store (some k) awaitSnapshot l = .ok s t) (hk : k.Quiet)
    (calls : List Call) :
    let w := (opened awaitSnapshot ⟨s, t.notices⟩).run calls
    (∀ p ∈ w.emitted, p.isKnown = true) ∧ w.emitted.Pairwise (· < ·)
      ∧ (w.log.state.phase = .snapshotting → w.installed = none)
      ∧ (w.log.state.phase = .streaming → w.installed.isSome)
      ∧ (w.installed = none → w.emitted = [] ∧ w.reached = .null)
      ∧ (∀ q, w.installed = some q →
          (∀ p ∈ w.emitted, q < p) ∧ w.reached = w.emitted.getLastD q
            ∧ ∀ more, (w.run more).installed = some q ∧ w.reached ≤ (w.run more).reached) := by
  intro w
  have h : Ascending w := ascending_run (ascending_opened hopen hk) calls
  refine ⟨?_, ?_, h.waiting, h.streaming, fun hn => (h.idle hn).symm, ?_⟩
  · intro p hp
    cases hi : w.installed with
    | none => rw [(h.idle hi).2] at hp; cases hp
    | some q => exact Position.isKnown_of_lt ((List.pairwise_cons.1 (h.chain q hi).1).1 p hp)
  · cases hi : w.installed with
    | none => rw [(h.idle hi).2]; exact .nil
    | some q => exact (List.pairwise_cons.1 (h.chain q hi).1).2
  · intro q hq
    obtain ⟨hpw, hlast⟩ := h.chain q hq
    refine ⟨(List.pairwise_cons.1 hpw).1, ?_, fun more => ?_⟩
    · rw [hlast, List.getLast_eq_getLastD]
    · obtain ⟨h1, h2⟩ := run_forward h (by rw [hq]; rfl) more
      exact ⟨h1.trans hq, h2⟩

/-- A life in which the sink refuses a change, takes it the second time, and stops the stream while
it takes the next one. -/
theorem emitted_ascends_until_stopped :
    let k : Sink Change := ⟨[.refuse (.malformed .noTable), .accept, .stop .accept], .accept⟩
    let change (n : Sequence) : Change := ⟨"t", .insert, .known n, [], none, some []⟩
    let s := Session.waiting "s" MemoryStore.empty (some k)
    let w := (opened true ⟨s, []⟩).run
      [.advance (change 5), .completeSnapshot (.known 10), .advance (change 11),
        .advance (change 11), .advance (change 11), .advance (change 12), .advance (change 13)]
    w.emitted = [.known 11, .known 12] ∧ w.log.state.phase = .stopped
      ∧ (∀ p ∈ w.emitted, .known 10 < p) ∧ w.reached = w.emitted.getLastD (.known 10) := by
  intro k change s w
  have hk : k.Quiet := by
    refine ⟨?_, trivial⟩
    intro r hr
    simp only [k, List.mem_cons, List.not_mem_nil, or_false] at hr
    rcases hr with rfl | rfl | rfl <;> trivial
  have h := emitted_ascends (S := Unit) (l := ⟨(), []⟩)
    (show Session.openOn "s" MemoryStore.empty (some k) true _ = .ok s _ from rfl) hk
    [.advance (change 5), .completeSnapshot (.known 10), .advance (change 11),
      .advance (change 11), .advance (change 11), .advance (change 12), .advance (change 13)]
  obtain ⟨h1, h2, _⟩ := h.2.2.2.2.2 (.known 10) (by decide +kernel)
  exact ⟨by decide +kernel, by decide +kernel, h1, h2⟩

end Course

end Changefeed
