import Changefeed.Proofs.Stream.Persisted

/-!
# What is stored trails the stream

A stream that begins at what is stored for it, or beyond, stays there: whatever
is called and whichever saves fail, the stored position is never further than
where the stream has come to (`stored_le_reached`). A session with a sink asks for
a save only after the sink has taken the change; a session without one never
asks by itself, and its owner is refused what lies ahead.

What it takes of a store is little. A save that fails may have moved the stored
position or not, and even one that ends normally need not; but the position is
never moved beyond what was to be saved (`Bounded`).
-/

namespace Changefeed

namespace Session

variable {σ : Type} [CheckpointStore σ]

/-- A session that has left for streaming and has come at least as far as what is stored. -/
structure Trailed (s : Session σ Change) : Prop where
  /-- If there is a sink, it is quiet. -/
  sink : ∀ k, s.sink = some k → k.Quiet
  left : s.phase ≠ .snapshotting
  stored : ∃ r, s.stored = .ok r ∧ r ≤ s.reached

/-- A session that goes no way back and leaves its store alone is still ahead of it. -/
theorem Trailed.move {s s' : Session σ Change} (h : Trailed s)
    (hs : ∀ k, s'.sink = some k → k.Quiet) (hp : s'.phase ≠ .snapshotting)
    (hload : s'.stored = s.stored) (hr : s.reached ≤ s'.reached) : Trailed s' := by
  obtain ⟨r, hstored, hle⟩ := h.stored
  exact ⟨hs, hp, r, hload.trans hstored, le_trans hle hr⟩

/-- A session that asks for what it has come to stays ahead, however the save ends. -/
theorem Trailed.save [Bounded σ] {l : Logged (Session σ Change)} (h : Trailed l.state)
    {p : Position} (hp : p ≤ l.state.reached) : Trailed ((Session.save p).after l).state := by
  obtain ⟨q, hstored, hle⟩ := h.stored
  obtain ⟨r, hr, hmax⟩ :=
    Bounded.load_save l.state.key p q ⟨l.state.store, l.notices⟩ hstored
  rw [save_after]
  exact ⟨h.sink, h.left, r, hr, le_trans hmax (max_le hle hp)⟩

/-! ## One call -/

theorem Trailed.completeSnapshot {l : Logged (Session σ Change)} (h : Trailed l.state)
    (p : Position) : Trailed ((call (.completeSnapshot p)).after l).state := by
  show Trailed ((Session.completeSnapshot p).after l).state
  rcases completeSnapshot_cases p l with ⟨_, f, hf⟩ | ⟨hw, _⟩ | ⟨hw, _⟩
  · rw [Act.after_of_error hf]
    exact h
  · exact absurd hw h.left
  · exact absurd hw h.left

theorem Trailed.beginStreaming {l : Logged (Session σ Change)} (h : Trailed l.state)
    (place : Option Position) : Trailed ((call (.beginStreaming place)).after l).state := by
  show Trailed ((Session.beginStreaming place).after l).state
  rcases beginStreaming_cases place l with ⟨f, hf⟩ | ⟨hw, _⟩
  · rw [Act.after_of_error hf]
    exact h
  · exact absurd hw h.left

theorem Trailed.advance [Bounded σ] {l : Logged (Session σ Change)} (h : Trailed l.state)
    (c : Change) : Trailed ((call (.advance c)).after l).state := by
  show Trailed ((Session.advance c).after l).state
  cases hk : l.state.sink with
  | none =>
    rcases advance_without_sink hk c with ⟨f, _, hf⟩ | ⟨_, hlt, hok⟩
    · rw [Act.after_of_error hf]
      exact h
    · rw [Act.after_of_ok hok]
      exact h.move h.sink h.left rfl (le_of_lt hlt)
  | some k =>
    have hq := h.sink k hk
    rcases advance_cases hk hq c with ⟨f, _, hf⟩ | ⟨_, hlt, ph, ns, hph, hends⟩
    · rw [Act.after_of_error hf]
      exact h
    have hleft : ph ≠ .snapshotting := by rcases hph with rfl | rfl <;> simp
    have hquiet : ∀ k', some k.advance = some k' → k'.Quiet := by
      intro k' hk'
      rw [← Option.some.inj hk']
      exact hq.advance
    rcases hends with ⟨f, hf⟩ | hsave
    · -- the sink refused the change, and may have stopped the stream
      rw [Act.after_of_error hf]
      exact h.move hquiet hleft rfl (le_refl _)
    · -- the stream has come to the change before the store is asked to save it
      rw [Act.after_congr hsave]
      have htaken : Trailed { l.state.taken k c with phase := ph } :=
        h.move hquiet hleft rfl (le_of_lt hlt)
      exact htaken.save (l := ⟨_, ns⟩) (le_refl _)

theorem Trailed.commit [Bounded σ] {l : Logged (Session σ Change)} (h : Trailed l.state)
    (p : Position) : Trailed ((call (.commit p)).after l).state := by
  show Trailed ((Session.commit p).after l).state
  rcases commit_cases p l with ⟨_, f, hf⟩ | ⟨hle, hsave⟩
  · rw [Act.after_of_error hf]
    exact h
  · rw [Act.after_congr hsave]
    exact h.save (not_lt.1 hle)

theorem Trailed.stop {l : Logged (Session σ Change)} (h : Trailed l.state) :
    Trailed ((call .stop).after l).state := by
  obtain ⟨ns, hs⟩ := stop_run l
  rw [Act.after_of_ok (show call .stop l = _ from hs)]
  exact h.move h.sink (by simp) rfl (le_refl _)

/-- **Every call leaves the stored position behind.** -/
theorem trailed_call [Bounded σ] {l : Logged (Session σ Change)} (h : Trailed l.state) (k : Call) :
    Trailed ((call k).after l).state := by
  cases k with
  | completeSnapshot p => exact h.completeSnapshot p
  | beginStreaming place => exact h.beginStreaming place
  | advance c => exact h.advance c
  | commit p => exact h.commit p
  | stop => exact h.stop

theorem trailed_afterCalls [Bounded σ] {l : Logged (Session σ Change)} (h : Trailed l.state)
    (calls : List Call) : Trailed (afterCalls l calls).state := by
  induction calls generalizing l with
  | nil => exact h
  | cons k rest ih => exact ih (trailed_call h k)

/-! ## Who asks for a save -/

/-- Whatever was to be saved in the course of some events had been taken before. -/
def SavesTaken (es : List Event) : Prop :=
  ∀ before key p after, es = before ++ .saving key p :: after →
    ∃ c, .taken c ∈ before ∧ c.position = p

/-- A session with a quiet sink asks to save a change only after the sink took it. -/
theorem advance_savesTaken {l : Logged (Session σ Change)} (h : Trailed l.state)
    (hk : l.state.sink.isSome) (c : Change) :
    ∃ es, ((Session.advance c).after l).state.trace = l.state.trace ++ es ∧ SavesTaken es := by
  obtain ⟨k, hk⟩ := Option.isSome_iff_exists.1 hk
  rcases advance_cases hk (h.sink k hk) c with ⟨f, _, hf⟩ | ⟨_, _, ph, ns, _, ⟨f, hf⟩ | hsave⟩
  · rw [Act.after_of_error hf]
    refine ⟨[], (List.append_nil _).symm, ?_⟩
    intro before key p after hes
    simp at hes
  · rw [Act.after_of_error hf]
    refine ⟨[.handed c l.state.stored], rfl, ?_⟩
    intro before key p after hes
    rcases before with _ | ⟨e, before⟩ <;> simp at hes
  · rw [Act.after_congr hsave, save_after]
    refine ⟨[.handed c l.state.stored, .taken c, .saving l.state.key c.position],
      ?_, ?_⟩
    · simp [taken, handed]
    · intro before key p after hes
      -- the one event of its kind is the last of the three
      rcases before with _ | ⟨e₁, _ | ⟨e₂, _ | ⟨e₃, before⟩⟩⟩ <;> simp at hes
      obtain ⟨_, rfl, ⟨_, rfl⟩, _⟩ := hes
      exact ⟨c, List.mem_cons_of_mem _ List.mem_cons_self, rfl⟩

/-- A session that has left for streaming, without a sink, leaves its store and its record alone
unless its owner commits. -/
theorem call_leaves_store {l : Logged (Session σ Change)} (h : Trailed l.state)
    (hk : l.state.sink = none) {k : Call} (hc : ∀ p, k ≠ .commit p) :
    ((call k).after l).state.store = l.state.store
      ∧ ((call k).after l).state.trace = l.state.trace := by
  cases k with
  | completeSnapshot p =>
    rcases completeSnapshot_cases p l with ⟨_, f, hf⟩ | ⟨hw, _⟩ | ⟨hw, _⟩
    · rw [Act.after_of_error (show call (.completeSnapshot p) l = _ from hf)]
      exact ⟨rfl, rfl⟩
    · exact absurd hw h.left
    · exact absurd hw h.left
  | beginStreaming place =>
    rcases beginStreaming_cases place l with ⟨f, hf⟩ | ⟨hw, _⟩
    · rw [Act.after_of_error (show call (.beginStreaming place) l = _ from hf)]
      exact ⟨rfl, rfl⟩
    · exact absurd hw h.left
  | advance c =>
    rcases advance_without_sink hk c with ⟨f, _, hf⟩ | ⟨_, _, hok⟩
    · rw [Act.after_of_error (show call (.advance c) l = _ from hf)]
      exact ⟨rfl, rfl⟩
    · rw [Act.after_of_ok (show call (.advance c) l = _ from hok)]
      exact ⟨rfl, rfl⟩
  | commit p => exact absurd rfl (hc p)
  | stop =>
    obtain ⟨ns, hs⟩ := stop_run l
    rw [Act.after_of_ok (show call .stop l = _ from hs)]
    exact ⟨rfl, rfl⟩

/-- A commit is refused, and nothing happens, exactly if its position lies ahead. -/
theorem commit_refused_iff (p : Position) (l : Logged (Session σ Change)) :
    l.state.reached < p ↔
      Session.commit p l = .error (.order (.ahead p l.state.key l.state.reached)) l := by
  constructor
  · intro hlt
    unfold Session.commit
    rw [Act.state_bind, if_pos hlt]
    rfl
  · intro hrefused
    rcases commit_cases p l with ⟨hlt, _⟩ | ⟨_, hsave⟩
    · exact hlt
    · -- asking the store would be on record
      have hafter := save_after p l
      rw [← Act.after_congr hsave, Act.after_of_error hrefused] at hafter
      have htrace := congrArg (fun s => s.trace.length) hafter
      simp at htrace

/--
**What is stored never runs ahead of the stream.**

A session streams, and has come at least as far as what is stored for it. After
any calls, however many of them fail: what is stored is no further than where the
session has come to. With a quiet sink, a change is asked to be saved only after
the sink took it, in the same call. Without a sink no call but a commit has the
store asked for anything. And a commit is refused, with nothing done, exactly if
it lies ahead of the session; otherwise the store is asked to save it.
-/
theorem stored_le_reached [Bounded σ] {s : Logged (Session σ Change)} {q : Position}
    (hp : s.state.phase = .streaming) (hq : s.state.stored = .ok q) (hle : q ≤ s.state.reached)
    (hk : ∀ k, s.state.sink = some k → k.Quiet) (calls : List Call) :
    let u := afterCalls s calls
    (∃ r, u.state.stored = .ok r ∧ r ≤ u.state.reached)
      ∧ (u.state.sink.isSome → ∀ c, ∃ es,
          ((Session.advance c).after u).state.trace = u.state.trace ++ es ∧ SavesTaken es)
      ∧ (u.state.sink = none → ∀ k, (∀ p, k ≠ .commit p) →
          ((call k).after u).state.store = u.state.store
            ∧ ((call k).after u).state.trace = u.state.trace)
      ∧ ∀ p, (u.state.reached < p ↔
            Session.commit p u = .error (.order (.ahead p u.state.key u.state.reached)) u)
          ∧ (p ≤ u.state.reached → Session.commit p u = Session.save p u) := by
  intro u
  have hstart : Trailed s.state := ⟨hk, by rw [hp]; simp, q, hq, hle⟩
  have h : Trailed u.state := trailed_afterCalls hstart calls
  refine ⟨h.stored, fun hsink c => advance_savesTaken h hsink c,
    fun hsink k hc => call_leaves_store h hsink hc, fun p => ⟨commit_refused_iff p u, ?_⟩⟩
  intro hple
  rcases commit_cases p u with ⟨hlt, _⟩ | ⟨_, hsave⟩
  · exact absurd hple (not_le.2 hlt)
  · exact hsave

/-- The first save fails on the disk, the sink refuses a change and later stops the stream, and two
commits are made, one of them too far. -/
theorem stored_le_reached_through_failures :
    let change (n : Sequence) : Change := ⟨"t", .insert, .known n, [], none, some []⟩
    let k : Sink Change := ⟨[.accept, .refuse (.malformed .noTable), .stop .accept], .accept⟩
    let disk : Disk := { Disk.empty with plan := ⟨[true], [], []⟩ }
    let s : Logged (Session Mounted Change) :=
      ⟨{ waiting "s" ⟨FileStore.blank ⟨.here, ["resume.json"]⟩ false, disk⟩ (some k) with
        phase := .streaming, reached := .known 10 }, []⟩
    let calls := [.advance (change 11), .commit (.known 12), .advance (change 12),
      .advance (change 12), .commit (.known 11)]
    s.state.stored = .ok .null ∧ Position.null ≤ s.state.reached
      ∧ (afterCalls s calls).state.phase = .stopped
      ∧ (afterCalls s calls).state.reached = .known 12
      ∧ ∃ r, (afterCalls s calls).state.stored = .ok r
        ∧ r ≤ (afterCalls s calls).state.reached := by
  intro change k disk s calls
  have hquiet : ∀ k', s.state.sink = some k' → k'.Quiet := by
    intro k' hk'
    rw [← Option.some.inj hk']
    refine ⟨?_, trivial⟩
    intro r hr
    simp only [k, List.mem_cons, List.not_mem_nil, or_false] at hr
    rcases hr with rfl | rfl | rfl <;> trivial
  have hstored : s.state.stored = .ok .null := rfl
  have hle : Position.null ≤ s.state.reached := Position.null_le _
  obtain ⟨hbehind, _⟩ := stored_le_reached (s := s) rfl hstored hle hquiet calls
  exact ⟨hstored, hle, by decide +kernel, by decide +kernel, hbehind⟩

end Session

end Changefeed
