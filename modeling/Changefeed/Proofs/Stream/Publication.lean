import Changefeed.Proofs.Stream.Lockstep

/-!
# Who publishes

A stream with a sink publishes each change itself: one call hands the change over,
counts it as taken and saves it. A stream without one leaves that to its owner,
who publishes a change after it was taken and then commits it. The two are
different calls with checks of their own, and the position moves at different
moments. Still nobody can tell from the outside which of the two is in use, as
long as the sink takes everything and calls nothing back (`sink_and_owner_alike`).

A `Publication` keeps account of what was published by either. What the two have
in common is `Beside`: everything but the sink and what the session has on record.
-/

namespace Changefeed

/-- A session, and the changes that were published in it, oldest first. -/
structure Publication (σ : Type) where
  session : Session σ Change
  published : List Change

/-- What can be seen of a call when it has ended. -/
structure Sight where
  ended : Except Fault Unit
  /-- All that has been published so far. -/
  published : List Change
  standing : Standing

namespace Publication

variable {σ : Type} [CheckpointStore σ]

/-- Acts on the session. -/
def onSession (act : Act (Session σ Change) Unit) : Act (Publication σ) Unit :=
  act.within (·.session) fun s p => { p with session := s }

/-- Keeps account of published changes. -/
def publish (cs : List Change) : Act (Publication σ) Unit :=
  .update fun p => { p with published := p.published ++ cs }

/-- Has a change taken by a session whose sink publishes it. What the sink took in the meantime is
published, whether or not the call then fails. -/
def takeBySink (c : Change) : Act (Publication σ) Unit := do
  let before := (← Act.state).session.published
  let ended ← Act.outcome (onSession (Session.advance c))
  publish ((← Act.state).session.published.drop before.length)
  Act.ofExcept ended

/-- Has a change taken by a session without a sink, publishes it and commits it. -/
def takeByOwner (c : Change) : Act (Publication σ) Unit := do
  onSession (Session.advance c)
  publish [c]
  onSession (Session.commit c.position)

/-- Makes a call, where changes are taken in the given way. -/
def call (take : Change → Act (Publication σ) Unit) : Call → Act (Publication σ) Unit
  | .advance c => take c
  | k => onSession (Session.call k)

/-- Makes a call, and looks at what has come of it. -/
def watch (take : Change → Act (Publication σ) Unit) (k : Call) : Act (Publication σ) Sight := do
  let ended ← Act.outcome (call take k)
  Act.read fun p => ⟨ended, p.published, p.session.standing⟩

/-- The publication after some calls, whichever of them fail. -/
def afterCalls (take : Change → Act (Publication σ) Unit) (p : Logged (Publication σ))
    (calls : List Call) : Logged (Publication σ) :=
  calls.foldl (fun p k => (call take k).after p) p

/-! ## Sessions beside each other -/

/-- A session with a sink that takes everything, and has published `cs`, beside one without a sink
that is the same but for what it has on record. -/
structure Beside (cs : List Change) (s t : Logged (Session σ Change)) : Prop where
  sink : ∃ k, s.state.sink = some k ∧ k.Accepting
  published : s.state.published = cs
  rest : ∃ tr, t = ⟨{ s.state with sink := none, trace := tr }, s.notices⟩

variable {cs : List Change} {s t : Logged (Session σ Change)}

/-- Two sessions beside each other are in lockstep, as long as neither takes a change. -/
theorem beside_lockstep (cs : List Change) : Session.Lockstep (Beside (σ := σ) cs) where
  key s t h := by obtain ⟨tr, rfl⟩ := h.rest; rfl
  standing s t h := by obtain ⟨tr, rfl⟩ := h.rest; rfl
  reach s t p h := by obtain ⟨tr, rfl⟩ := h.rest; exact ⟨h.sink, h.published, tr, rfl⟩
  enter s t ph h := by obtain ⟨tr, rfl⟩ := h.rest; exact ⟨h.sink, h.published, tr, rfl⟩
  note s t n h := by obtain ⟨tr, rfl⟩ := h.rest; exact ⟨h.sink, h.published, tr, rfl⟩
  save p := by
    intro s t h
    obtain ⟨tr, rfl⟩ := h.rest
    unfold Act.result Act.after
    rw [Session.save_run, Session.save_run, Act.within, Act.within]
    dsimp only
    -- the store is asked the same, and that it is asked goes on record in both
    cases CheckpointStore.save s.state.key p ⟨s.state.store, s.notices⟩ with
    | ok a u => exact ⟨rfl, h.sink, (Session.published_asked ..).trans h.published, _, rfl⟩
    | error f u => exact ⟨rfl, h.sink, (Session.published_asked ..).trans h.published, _, rfl⟩

/-! ## Taking a change -/

omit [CheckpointStore σ] in
theorem onSession_run (act : Act (Session σ Change) Unit) (p : Logged (Publication σ)) :
    onSession act p = match act ⟨p.state.session, p.notices⟩ with
      | .ok a t => .ok a ⟨{ p.state with session := t.state }, t.notices⟩
      | .error f t => .error f ⟨{ p.state with session := t.state }, t.notices⟩ := by
  unfold onSession Act.within
  cases act ⟨p.state.session, p.notices⟩ <;> rfl

omit [CheckpointStore σ] in
theorem publish_bind (cs : List Change) (k : Unit → Act (Publication σ) Unit)
    (p : Logged (Publication σ)) : (publish cs >>= k) p =
      k () ⟨{ p.state with published := p.state.published ++ cs }, p.notices⟩ := rfl

/-- **The sink publishes** between the check of the order and the save. -/
theorem takeBySink_run {p : Logged (Publication σ)} {k : Sink Change}
    (hk : p.state.session.sink = some k) (ha : k.Accepting) (c : Change) :
    takeBySink c p = match p.state.session.refusal? c with
      | some f => .error f p
      | none =>
        match CheckpointStore.save p.state.session.key c.position
            ⟨p.state.session.store, p.notices⟩ with
        | .ok _ u => .ok () ⟨⟨p.state.session.settled c p.state.session.phase u.state,
            p.state.published ++ [c]⟩, u.notices⟩
        | .error f u => .error f ⟨⟨p.state.session.settled c p.state.session.phase u.state,
            p.state.published ++ [c]⟩, u.notices⟩ := by
  have hsilent : p.state.session.Silent := by
    intro k' hk'
    rw [hk] at hk'
    cases hk'
    exact ha.silent
  have hrun := Session.advance_silent (s := ⟨p.state.session, p.notices⟩) hsilent c
  have hfault : k.next.fault? = none := by rw [ha.next]; rfl
  have hnew : ∀ store, (p.state.session.settled c p.state.session.phase store).published.drop
      p.state.session.published.length = [c] := by
    intro store
    rw [Session.published_settled, List.drop_left]
  unfold takeBySink
  rw [Act.state_bind, Act.outcome_bind, onSession_run, hrun]
  dsimp only
  cases p.state.session.refusal? c with
  | some f =>
    dsimp only
    rw [Act.state_bind, publish_bind, List.drop_length, List.append_nil]
    rfl
  | none =>
    rw [hk]
    dsimp only
    rw [hfault]
    dsimp only
    cases CheckpointStore.save p.state.session.key c.position
        ⟨p.state.session.store, p.notices⟩ with
    | ok a u =>
      dsimp only
      rw [Act.state_bind, publish_bind, hnew]
      rfl
    | error f u =>
      dsimp only
      rw [Act.state_bind, publish_bind, hnew]
      rfl

/-- **The owner publishes** between the two calls, and commits what the first one took. -/
theorem takeByOwner_run {p : Logged (Publication σ)} (hk : p.state.session.sink = none)
    (c : Change) :
    takeByOwner c p = match p.state.session.refusal? c with
      | some f => .error f p
      | none =>
        match CheckpointStore.save p.state.session.key c.position
            ⟨p.state.session.store, p.notices⟩ with
        | .ok _ u => .ok () ⟨⟨{ p.state.session with
            reached := c.position
            store := u.state
            trace := p.state.session.trace ++ [.saving p.state.session.key c.position] },
            p.state.published ++ [c]⟩, u.notices⟩
        | .error f u => .error f ⟨⟨{ p.state.session with
            reached := c.position
            store := u.state
            trace := p.state.session.trace ++ [.saving p.state.session.key c.position] },
            p.state.published ++ [c]⟩, u.notices⟩ := by
  unfold takeByOwner
  rw [Act.bind_run, onSession_run]
  rcases Session.advance_without_sink (s := ⟨p.state.session, p.notices⟩) hk c with
    ⟨f, hf, hrun⟩ | ⟨hp, hlt, hrun⟩
  · dsimp only at hf
    rw [hrun, hf]
  · have hnone : p.state.session.refusal? c = none := Session.refusal?_eq_none.2 ⟨hp, hlt⟩
    rw [hrun, hnone]
    dsimp only
    rw [publish_bind, onSession_run]
    -- the session stands at the change by now, so the commit is not refused
    rcases Session.commit_cases c.position
        ⟨{ p.state.session with reached := c.position }, p.notices⟩ with ⟨hlt, _⟩ | ⟨_, hsave⟩
    · exact absurd hlt (lt_irrefl _)
    · dsimp only
      rw [hsave, Session.save_run, Act.within]
      dsimp only
      cases CheckpointStore.save p.state.session.key c.position
          ⟨p.state.session.store, p.notices⟩ <;> rfl

/-! ## Publications beside each other -/

/-- Two publications of which the first is by the sink and the second by the owner, with sessions
beside each other. The sink has taken what was published, and nothing else. -/
structure Level (p q : Logged (Publication σ)) : Prop where
  session : Beside p.state.published ⟨p.state.session, p.notices⟩ ⟨q.state.session, q.notices⟩
  published : q.state.published = p.state.published

omit [CheckpointStore σ] in
/-- What leaves sessions beside each other leaves publications so. -/
theorem onSession_level {act : Act (Session σ Change) Unit}
    (h : ∀ cs, Act.Matches (Beside cs) act act) :
    Act.Matches Level (onSession act) (onSession (σ := σ) act) := by
  refine .within fun p q hpq => ?_
  obtain ⟨hresult, hafter⟩ := h _ _ _ hpq.session
  exact ⟨hresult, hafter, hpq.published⟩

/-- **Taking a change** ends alike by the sink and by the owner. -/
theorem take_level (c : Change) :
    Act.Matches (Level (σ := σ)) (takeBySink c) (takeByOwner c) := by
  intro p q h
  obtain ⟨k, hk, ha⟩ := h.session.sink
  obtain ⟨⟨sq, published⟩, ns⟩ := q
  obtain ⟨tr, hq⟩ := h.session.rest
  cases hq
  cases h.published
  have hsink := takeBySink_run hk ha c
  have howner := takeByOwner_run (p := ⟨⟨{ p.state.session with sink := none, trace := tr },
    p.state.published⟩, p.notices⟩) rfl c
  have hrefusal : ({ p.state.session with sink := none, trace := tr } : Session σ Change).refusal? c
      = p.state.session.refusal? c := rfl
  have hpublished : ∀ store, (p.state.session.settled c p.state.session.phase store).published =
      p.state.published ++ [c] := by
    intro store
    have hbefore : p.state.session.published = p.state.published := h.session.published
    rw [Session.published_settled, hbefore]
  have hadvanced : ∀ store, (p.state.session.settled c p.state.session.phase store).sink =
      some k.advance := by
    intro store
    show p.state.session.sink.map Sink.advance = _
    rw [hk]
    rfl
  dsimp only at hsink howner
  rw [hrefusal] at howner
  unfold Act.result Act.after
  rw [hsink, howner]
  cases p.state.session.refusal? c with
  | some f => exact ⟨rfl, h⟩
  | none =>
    dsimp only
    cases CheckpointStore.save p.state.session.key c.position
        ⟨p.state.session.store, p.notices⟩ with
    | ok a u => exact ⟨rfl, ⟨⟨_, hadvanced _, ha.advance⟩, hpublished _, _, rfl⟩, rfl⟩
    | error f u => exact ⟨rfl, ⟨⟨_, hadvanced _, ha.advance⟩, hpublished _, _, rfl⟩, rfl⟩

theorem call_level (k : Call) :
    Act.Matches (Level (σ := σ)) (call takeBySink k) (call takeByOwner k) := by
  cases k with
  | completeSnapshot p => exact onSession_level fun cs => (beside_lockstep cs).completeSnapshot p
  | beginStreaming place => exact onSession_level fun cs => (beside_lockstep cs).beginStreaming place
  | advance c => exact take_level c
  | commit p => exact onSession_level fun cs => (beside_lockstep cs).commit p
  | stop => exact onSession_level fun cs => (beside_lockstep cs).stop

/-- What is seen of a call is alike too. -/
theorem watch_level (k : Call) :
    Act.Matches (Level (σ := σ)) (watch takeBySink k) (watch takeByOwner k) := by
  intro p q h
  obtain ⟨hresult, hafter⟩ := call_level k p q h
  have hsight : ∀ (take : Change → Act (Publication σ) Unit) (p : Logged (Publication σ)),
      watch take k p = .ok ⟨(call take k).result p, ((call take k).after p).state.published,
        ((call take k).after p).state.session.standing⟩ ((call take k).after p) := by
    intro take p
    unfold watch Act.result Act.after
    rw [Act.outcome_bind]
    cases call take k p <;> rfl
  rw [Act.result_of_ok (hsight _ p), Act.result_of_ok (hsight _ q), Act.after_of_ok (hsight _ p),
    Act.after_of_ok (hsight _ q), hresult, hafter.published,
    (beside_lockstep _).standing _ _ hafter.session]
  exact ⟨rfl, hafter⟩

theorem level_afterCalls {p q : Logged (Publication σ)} (h : Level p q) (calls : List Call) :
    Level (afterCalls takeBySink p calls) (afterCalls takeByOwner q calls) := by
  induction calls generalizing p q with
  | nil => exact h
  | cons k rest ih => exact ih (call_level k p q h).2

/-! ## The two ways -/

/-- Opening a session does not depend on whether it has a sink. -/
theorem openOn_without_sink {S : Type} (key : Text) (store : σ) (k : Sink Change)
    (awaitSnapshot : Bool) (l : Logged S) :
    Session.openOn key store (none : Option (Sink Change)) awaitSnapshot l =
      match Session.openOn key store (some k) awaitSnapshot l with
      | .ok s t => .ok { s with sink := none } t
      | .error f t => .error f t := by
  unfold Session.openOn
  cases awaitSnapshot with
  | true => rfl
  | false =>
    have hstored : ∀ sink : Option (Sink Change),
        (Session.waiting key store sink).stored = CheckpointStore.load store key := fun _ => rfl
    simp only [hstored, Bool.false_eq_true, if_false]
    cases CheckpointStore.load store key <;> rfl

/--
**Published by the sink or by the owner.**

A session with a sink that takes everything and calls nothing back is opened on a
store, whatever that holds and however it fails, and so is one without a sink,
whose owner publishes each change that it takes and then commits it. Either both
fail to open, and alike, or both are open; and then, for any calls, each call
ends alike in both, the same changes have been published after it, in the same
order, and both stand in the same place. What was published are the changes that
the sink has on record as taken.
-/
theorem sink_and_owner_alike {S : Type} (key : Text) (store : σ) {k : Sink Change}
    (hk : k.Accepting) (awaitSnapshot : Bool) (l : Logged S) :
    match Session.openOn key store (some k) awaitSnapshot l,
      Session.openOn key store none awaitSnapshot l with
    | .ok s t, .ok s' t' => ∀ calls,
        Act.results (watch takeBySink) ⟨⟨s, []⟩, t.notices⟩ calls =
            Act.results (watch takeByOwner) ⟨⟨s', []⟩, t'.notices⟩ calls
          ∧ let p := (afterCalls takeBySink ⟨⟨s, []⟩, t.notices⟩ calls).state
            p.session.published = p.published
    | .error f _, .error f' _ => f = f'
    | _, _ => False := by
  have hwithout := openOn_without_sink key store k awaitSnapshot l
  cases hopen : Session.openOn key store (some k) awaitSnapshot l with
  | error f t =>
    rw [hopen] at hwithout
    rw [hwithout]
  | ok s t =>
    rw [hopen] at hwithout
    rw [hwithout]
    intro calls
    have hfresh : s.sink = some k ∧ s.published = [] := by
      rcases Session.openOn_cases hopen with ⟨_, rfl⟩ | ⟨_, p, _, rfl⟩ <;> exact ⟨rfl, rfl⟩
    have hlevel : Level (σ := σ) ⟨⟨s, []⟩, t.notices⟩ ⟨⟨{ s with sink := none }, []⟩, t.notices⟩ :=
      ⟨⟨⟨k, hfresh.1, hk⟩, hfresh.2, s.trace, rfl⟩, rfl⟩
    exact ⟨Act.results_congr (R := Level) watch_level calls hlevel,
      (level_afterCalls hlevel calls).session.published⟩

/-- The disk is full when the change at 11 is to be saved, and not before or after. The sink has
published that change by then, and so has the owner: either way it stays published, is refused when
it comes again, and the change at 12 is saved. -/
theorem sink_and_owner_alike_on_full_disk :
    let change (n : Sequence) : Change := ⟨"t", .insert, .known n, [], none, some []⟩
    let disk : Disk := { Disk.empty with plan := ⟨[false, true], [], []⟩ }
    let store : Mounted := ⟨FileStore.blank ⟨.here, ["resume.json"]⟩ false, disk⟩
    let k : Sink Change := .always .accept
    let calls := [.completeSnapshot (.known 10), .advance (change 11), .advance (change 11),
      .advance (change 12), .stop, .advance (change 13)]
    let before : Logged Unit := ⟨(), []⟩
    ∃ s s' t, k.Accepting ∧ Session.openOn "s" store (some k) true before = .ok s t
      ∧ Session.openOn "s" store none true before = .ok s' t
      ∧ (let seen := Act.results (watch takeByOwner) ⟨⟨s', []⟩, t.notices⟩ calls
        Act.results (watch takeBySink) ⟨⟨s, []⟩, t.notices⟩ calls = seen
          ∧ seen.map (·.toOption.map fun v => (v.ended.toOption.isSome,
              v.published.map Change.position, v.standing.reached, v.standing.stored.toOption)) =
            [some (true, [], .known 10, some (.known 10)),
             some (false, [.known 11], .known 11, some (.known 11)),
             some (false, [.known 11], .known 11, some (.known 11)),
             some (true, [.known 11, .known 12], .known 12, some (.known 12)),
             some (true, [.known 11, .known 12], .known 12, some (.known 12)),
             some (false, [.known 11, .known 12], .known 12, some (.known 12))]) := by
  intro change disk store k calls before
  have hk : k.Accepting := ⟨nofun, rfl⟩
  refine ⟨_, _, _, hk, rfl, rfl, (sink_and_owner_alike "s" store hk true before calls).1, ?_⟩
  decide +kernel

end Publication

end Changefeed
