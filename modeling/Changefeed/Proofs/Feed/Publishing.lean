import Changefeed.Proofs.Checkpoint.Calls
import Changefeed.Proofs.Feed.Counting
import Changefeed.Proofs.Feed.Draining
import Changefeed.Proofs.Feed.Records
import Changefeed.Proofs.Stream.Silent

/-!
# What a drain publishes

Where the sink takes every change and the store saves every position, the only
fault left is one of order, and a drain is told by the positions of its source. A
feed that skips publishes the records of the source and passes over the others; a
feed that does not publishes what comes before the first of the others, and ends
there (`drain_publishes`). A snapshot in the source is where the stream starts
from, and all that comes before it is out of order.
-/

namespace Changefeed

variable {σ : Type} [CheckpointStore σ]

/-- A store that never fails to save a position of a stream, whatever it saved of it before. -/
def Unfailing (key : Text) (s : σ) : Prop :=
  ∃ good : σ → Prop, good s ∧ ∀ t p ns, good t →
    ∃ u, CheckpointStore.save key p ⟨t, ns⟩ = .ok () u ∧ good u.state

theorem Unfailing.save {key : Text} {s : σ} (h : Unfailing key s) (p : Position)
    (ns : List Notice) :
    ∃ u, CheckpointStore.save key p ⟨s, ns⟩ = .ok () u ∧ Unfailing key u.state := by
  obtain ⟨good, hs, hgood⟩ := h
  obtain ⟨u, hu, hg⟩ := hgood s p ns hs
  exact ⟨u, hu, good, hg, hgood⟩

theorem MemoryStore.unfailing (key : Text) (s : MemoryStore) : Unfailing key s := by
  refine ⟨fun _ => True, trivial, ?_⟩
  intro t p ns _
  cases p with
  | null => exact ⟨_, rfl, trivial⟩
  | known n => exact ⟨_, rfl, trivial⟩

namespace Session

theorem save_of_ok {α : Type} {p : Position} {s : Logged (Session σ α)} {u : Logged σ}
    (h : CheckpointStore.save s.state.key p ⟨s.state.store, s.notices⟩ = .ok () u) :
    save p s = .ok () ⟨{ s.state with
      trace := s.state.trace ++ [.saving s.state.key p], store := u.state }, u.notices⟩ := by
  rw [save_run, Act.within]
  dsimp only
  rw [h]

end Session

namespace Feed

/-! ## Where a feed stands -/

/-- Where a feed stands on which nothing fails but the order of changes: what it never changes, its
phase, how far it has come and what is stored. -/
structure Stands (catalog : Catalog) (policy : OrderPolicy) (key : Text) (phase : Phase)
    (p q : Position) (f : Feed σ) : Prop where
  catalog : f.catalog = catalog
  policy : f.policy = policy
  onKey : f.session.key = key
  phase : f.session.phase = phase
  reached : f.session.reached = p
  stored : f.session.stored = .ok q
  sink : ∀ k, f.session.sink = some k → k.Accepting
  store : Unfailing f.session.key f.session.store

variable {catalog : Catalog} {policy : OrderPolicy} {key : Text} {phase : Phase} {p q : Position}
  {f : Feed σ} {l m : Logged (Feed σ)} {e : LogEntry} {c : Change}

namespace Stands

/-- Meters do not matter to where a feed stands. -/
theorem metered (h : Stands catalog policy key phase p q f) (m : Meters) :
    Stands catalog policy key phase p q { f with meters := m } :=
  ⟨h.catalog, h.policy, h.onKey, h.phase, h.reached, h.stored, h.sink, h.store⟩

/-- Nor does what is on record. -/
theorem recorded (h : Stands catalog policy key phase p q f) (es : List Event) :
    Stands catalog policy key phase p q { f with session := { f.session with trace := es } } :=
  ⟨h.catalog, h.policy, h.onKey, h.phase, h.reached, h.stored, h.sink, h.store⟩

theorem handed (h : Stands catalog policy key phase p q f) (c : Change) :
    Stands catalog policy key phase p q (f.handed c) := by
  refine ⟨h.catalog, h.policy, h.onKey, h.phase, h.reached, h.stored, ?_, h.store⟩
  intro k hk
  obtain ⟨k', hk', rfl⟩ := Option.map_eq_some_iff.1 hk
  exact (h.sink k' hk').advance

theorem reaction (h : Stands catalog policy key phase p q f) :
    f.session.reaction = .accept := by
  unfold Session.reaction
  cases hk : f.session.sink with
  | none => rfl
  | some k => exact (h.sink k hk).next

/-- A feed whose stream goes to another position. -/
theorem moved (h : Stands catalog policy key phase p q f) (r : Position) :
    Stands catalog policy key phase r q { f with session := { f.session with reached := r } } :=
  ⟨h.catalog, h.policy, h.onKey, h.phase, rfl, h.stored, h.sink, h.store⟩

/-- A feed whose stream goes to another phase. -/
theorem entered (h : Stands catalog policy key phase p q f) (ph : Phase) :
    Stands catalog policy key ph p q { f with session := { f.session with phase := ph } } :=
  ⟨h.catalog, h.policy, h.onKey, rfl, h.reached, h.stored, h.sink, h.store⟩

theorem isOpen (h : Stands catalog policy key phase p q f) (hphase : phase ≠ .stopped) :
    f.session.phase ≠ .stopped := by
  rw [h.phase]
  exact hphase

/-- The store saves whatever it is asked to. -/
theorem save [Furthest σ] (h : Stands catalog policy key phase p q f) (r : Position)
    (ns : List Notice) :
    ∃ u ns', Session.save r ⟨f.session, ns⟩ = .ok () ⟨u, ns'⟩
      ∧ u.trace = f.session.trace ++ [.saving key r]
      ∧ Stands catalog policy key phase p (max q r) { f with session := u } := by
  obtain ⟨w, hw, hstore⟩ := h.store.save r ns
  have hload := Furthest.load_save f.session.key r q ⟨f.session.store, ns⟩ h.stored
  rw [Act.after_of_ok hw] at hload
  refine ⟨_, _, Session.save_of_ok hw, ?_, h.catalog, h.policy, h.onKey, h.phase, h.reached, hload,
    h.sink, hstore⟩
  rw [← h.onKey]

/-! ## One item -/

/-- The sink takes a change that advances the stream, and the store saves it. -/
theorem accept [Furthest σ] (h : Stands catalog policy key .streaming p q l.state)
    (hc : e.assemble catalog = .ok c) (hlt : p < c.position) :
    ∃ m, offer e l = .ok c m
      ∧ Stands catalog policy key .streaming c.position (max q c.position) m.state
      ∧ m.state.session.trace = l.state.session.trace
        ++ [.handed c (.ok q), .taken c, .saving key c.position]
      ∧ m.state.meters.counter .outOfOrder = l.state.meters.counter .outOfOrder := by
  have hassembled : e.assemble l.state.catalog = .ok c := by
    rw [h.catalog]
    exact hc
  have hahead : l.state.session.refusal? c = none :=
    Session.refusal?_eq_none.2 ⟨h.phase, by rw [h.reached]; exact hlt⟩
  let g := (l.state.counted .assembled).handed c
  have hhand : handing c l = .ok () ⟨g, l.notices⟩ := by
    unfold handing
    rw [h.reaction]
    rfl
  have hg : Stands catalog policy key .streaming p q g := (h.metered _).handed c
  have htaken : Stands catalog policy key .streaming p q (g.taken c) := (hg.recorded _).metered _
  obtain ⟨u, ns, hsave, htrace, hstands⟩ := (htaken.moved c.position).save c.position l.notices
  have hsettle : settling c ⟨g, l.notices⟩ = .ok () ⟨{ g.taken c with session := u }, ns⟩ := by
    have hrun : Session.settle c ⟨(g.taken c).session, l.notices⟩ = .ok () ⟨u, ns⟩ := hsave
    unfold settling
    rw [onSession_run]
    dsimp only
    rw [hrun]
  refine ⟨_, offer_accepted hassembled hahead hhand hsettle, hstands.metered _, ?_, ?_⟩
  · show u.trace = _
    rw [htrace, taken_trace, handed_trace, counted_session, h.stored]
    simp
  · show ({ (g.taken c).meters with position := c.position } : Meters).counter .outOfOrder = _
    rw [Meters.counter_showing, taken_meters, handed_meters, counted_meters, Meters.counter_add,
      Meters.counter_add]
    rfl

omit [CheckpointStore σ] in
theorem tallyOf_order {f : Fault} (h : f.family = .order) : tallyOf f = .outOfOrder := if_pos h

/-- The stream refuses a change that does not advance it, and the feed counts that. -/
theorem refuse (h : Stands catalog policy key phase p q l.state) (hopen : phase ≠ .stopped)
    (hc : e.assemble catalog = .ok c) (hbehind : phase = .snapshotting ∨ c.position ≤ p) :
    ∃ f m, offer e l = .error f m ∧ f.family = .order
      ∧ Stands catalog policy key phase p q m.state
      ∧ m.state.session.trace = l.state.session.trace
      ∧ m.state.meters.counter .outOfOrder = (l.state.meters.counter .outOfOrder).add 1 := by
  have hassembled : e.assemble l.state.catalog = .ok c := by
    rw [h.catalog]
    exact hc
  have hnot := h.isOpen hopen
  cases hr : l.state.session.refusal? c with
  | none =>
    obtain ⟨hstreaming, hlt⟩ := Session.refusal?_eq_none.1 hr
    rcases hbehind with hearly | hle
    · rw [h.phase, hearly] at hstreaming
      cases hstreaming
    · rw [h.reached] at hlt
      exact absurd hle (not_le.2 hlt)
  | some f =>
    obtain ⟨horder, _⟩ := refusal?_order hr hnot
    refine ⟨f, _, offer_refused hnot hassembled hr, horder, (h.metered _).metered _, ?_, ?_⟩
    · rw [counted_session, counted_session]
    · rw [tallyOf_order horder, counted_meters, counted_meters, Meters.counter_add,
        Meters.counter_add]
      rfl

/-- A stream that waits for its snapshot starts from where that is. -/
theorem completeSnapshot [Furthest σ] (h : Stands catalog policy key .snapshotting p q l.state)
    (r : Position) :
    ∃ m, Feed.take (.snapshot r) l = .ok 0 m
      ∧ Stands catalog policy key .streaming r (max q r) m.state
      ∧ m.state.session.trace = l.state.session.trace ++ [.saving key r]
      ∧ m.state.meters.counter .outOfOrder = l.state.meters.counter .outOfOrder := by
  obtain ⟨u, ns, hsave, htrace, hstands⟩ := h.save r l.notices
  obtain ⟨ns', henter⟩ := Session.enterStreaming_run r .snapshot ⟨u, ns⟩
  have hrun : Session.completeSnapshot r ⟨l.state.session, l.notices⟩ =
      .ok () ⟨{ u with reached := r, phase := .streaming }, ns'⟩ := by
    unfold Session.completeSnapshot
    rw [Act.bind_of_ok (Session.requireWaiting_of_waiting _ h.phase), Act.bind_of_ok hsave, henter]
  have hsession : onSession (Session.completeSnapshot r) l =
      .ok () ⟨{ l.state with session := { u with reached := r, phase := .streaming } }, ns'⟩ := by
    rw [onSession_run, hrun]
  have hfeed : Feed.completeSnapshot r l = .ok () ⟨({ l.state with
      session := { u with reached := r, phase := .streaming } } : Feed σ).showing r, ns'⟩ :=
    Act.bind_of_ok hsession
  refine ⟨_, Act.bind_of_ok hfeed, ((hstands.moved r).entered .streaming).metered _, htrace, ?_⟩
  exact Meters.counter_showing l.state.meters r .outOfOrder

end Stands

/-! ## Accounts -/

/-- The entries of a source that holds nothing else. -/
def arrivals (entries : List LogEntry) : List Arrival := entries.map fun e => .item (.entry e)

/-- What can be told of a drain. -/
structure Account where
  /-- The changes that the sink took. -/
  published : List Change
  /-- How many changes were refused for their order. -/
  refused : Nat
  events : List Event
  /-- What is stored in the end. -/
  stored : Position
  /-- Where the stream has come to in the end. -/
  reached : Position
  fault : Option Fault

/-- The change that was taken, if the offering came to that. -/
def Offering.change? (o : Offering σ) : Option Change :=
  match offer o.entry o.feed with
  | .ok c _ => some c
  | .error .. => none

theorem Offering.change?_of_ok (h : offer e l = .ok c m) : Offering.change? ⟨l, e⟩ = some c := by
  unfold Offering.change?
  rw [h]

theorem Offering.change?_of_error {f : Fault} (h : offer e l = .error f m) :
    Offering.change? ⟨l, e⟩ = none := by
  unfold Offering.change?
  rw [h]

/-- A drain of a source comes to an end as an account of it tells. -/
structure Drains (l : Logged (Feed σ)) (source : List Arrival) (a : Account)
    (t : Logged (Feed σ)) : Prop where
  /-- It counts the changes that were published on top of those counted before. -/
  run : ∀ m n, ∃ n', drainFrom ⟨m, n, none⟩ source l = .ok ⟨m + a.published.length, n', a.fault⟩ t
  published : (offerings l source).filterMap Offering.change? = a.published
  events : t.state.session.trace = l.state.session.trace ++ a.events
  stored : t.state.session.stored = .ok a.stored
  reached : t.state.session.reached = a.reached
  outOfOrder : (t.state.meters.counter .outOfOrder).count =
    (l.state.meters.counter .outOfOrder).count + a.refused

namespace Drains

variable {t : Logged (Feed σ)} {rest : List Arrival} {a : Account}

theorem drain_run {source : List Arrival} (h : Drains l source a t) :
    ∃ n, drain source l = .ok ⟨a.published.length, n, a.fault⟩ t := by
  obtain ⟨n, hrun⟩ := h.run 0 0
  rw [Nat.zero_add] at hrun
  exact ⟨n, hrun⟩

theorem nil (h : Stands catalog policy key phase p q l.state) :
    Drains l [] ⟨[], 0, [], q, p, none⟩ l where
  run _ n := ⟨n, rfl⟩
  published := rfl
  events := (List.append_nil _).symm
  stored := h.stored
  reached := h.reached
  outOfOrder := rfl

/-- A change is published, and the drain goes on. -/
theorem cons_accept {es : List Event} (hopen : l.state.session.phase ≠ .stopped)
    (hoffer : offer e l = .ok c m)
    (htrace : m.state.session.trace = l.state.session.trace ++ es)
    (hcount : m.state.meters.counter .outOfOrder = l.state.meters.counter .outOfOrder)
    (h : Drains m rest a t) :
    Drains l (.item (.entry e) :: rest)
      { a with published := c :: a.published, events := es ++ a.events } t := by
  have htake : Feed.take (.entry e) l = .ok 1 m := by
    rw [take_entry_run, hoffer]
  refine ⟨?_, ?_, ?_, h.stored, h.reached, ?_⟩
  · intro k n
    obtain ⟨n', hrest⟩ := h.run (k + 1) (n + 1)
    refine ⟨n', ?_⟩
    rw [drainFrom_item hopen, htake]
    refine hrest.trans ?_
    rw [List.length_cons, Nat.add_right_comm, Nat.add_assoc]
  · rw [offerings_item hopen, htake]
    exact (List.filterMap_cons_some (Offering.change?_of_ok hoffer)).trans
      (congrArg (c :: ·) h.published)
  · rw [h.events, htrace, List.append_assoc]
  · rw [← hcount]
    exact h.outOfOrder

/-- Under a policy of skipping, a change is refused for its order, and the drain goes on. -/
theorem cons_refuse {f : Fault} (hopen : l.state.session.phase ≠ .stopped)
    (hoffer : offer e l = .error f m) (horder : f.family = .order) (hpolicy : m.state.policy = .skip)
    (htrace : m.state.session.trace = l.state.session.trace)
    (hcount : m.state.meters.counter .outOfOrder = (l.state.meters.counter .outOfOrder).add 1)
    (h : Drains ⟨m.state, m.notices ++ [.skipped f]⟩ rest a t) :
    Drains l (.item (.entry e) :: rest) { a with refused := a.refused + 1 } t := by
  have hskips : m.state.skips f = true := by simp [skips, hpolicy, horder]
  have htake : Feed.take (.entry e) l = .ok 0 ⟨m.state, m.notices ++ [.skipped f]⟩ := by
    rw [take_entry_run, hoffer]
    exact if_pos hskips
  refine ⟨?_, ?_, ?_, h.stored, h.reached, ?_⟩
  · intro k n
    obtain ⟨n', hrest⟩ := h.run k (n + 1)
    refine ⟨n', ?_⟩
    rw [drainFrom_item hopen, htake]
    exact hrest
  · rw [offerings_item hopen, htake]
    exact (List.filterMap_cons_none (Offering.change?_of_error hoffer)).trans h.published
  · rw [h.events, htrace]
  · have hrest := h.outOfOrder
    dsimp only at hrest ⊢
    rw [hrest, hcount, Counter.count_add]
    omega

/-- Under a policy of failing, the first change that is refused ends the drain. -/
theorem cons_fail {f : Fault} (hopen : l.state.session.phase ≠ .stopped)
    (hoffer : offer e l = .error f m) (hpolicy : policy ≠ .skip)
    (htrace : m.state.session.trace = l.state.session.trace)
    (hcount : m.state.meters.counter .outOfOrder = (l.state.meters.counter .outOfOrder).add 1)
    (h : Stands catalog policy key phase p q m.state) (rest : List Arrival) :
    Drains l (.item (.entry e) :: rest) ⟨[], 1, [], q, p, some f⟩ m := by
  have hskips : ¬m.state.skips f = true := by simp [skips, h.policy, hpolicy]
  have htake : Feed.take (.entry e) l = .error f m := by
    rw [take_entry_run, hoffer]
    exact if_neg hskips
  refine ⟨?_, ?_, ?_, h.stored, h.reached, ?_⟩
  · intro k n
    refine ⟨n + 1, ?_⟩
    rw [drainFrom_item hopen, htake]
    rfl
  · rw [offerings_item hopen, htake]
    exact List.filterMap_cons_none (Offering.change?_of_error hoffer)
  · rw [htrace, List.append_nil]
  · rw [hcount, Counter.count_add]

/-- The snapshot is complete, and the drain goes on. -/
theorem cons_snapshot {r : Position} {es : List Event} (hopen : l.state.session.phase ≠ .stopped)
    (htake : Feed.take (.snapshot r) l = .ok 0 m)
    (htrace : m.state.session.trace = l.state.session.trace ++ es)
    (hcount : m.state.meters.counter .outOfOrder = l.state.meters.counter .outOfOrder)
    (h : Drains m rest a t) :
    Drains l (.item (.snapshot r) :: rest) { a with events := es ++ a.events } t := by
  refine ⟨?_, ?_, ?_, h.stored, h.reached, ?_⟩
  · intro k n
    obtain ⟨n', hrest⟩ := h.run k (n + 1)
    refine ⟨n', ?_⟩
    rw [drainFrom_item hopen, htake]
    exact hrest
  · rw [offerings_item hopen, htake]
    exact h.published
  · rw [h.events, htrace, List.append_assoc]
  · rw [← hcount]
    exact h.outOfOrder

end Drains

/-! ## Whole sources -/

/-- What goes on record when changes are published, on a store that held `q` before. -/
def handovers (key : Text) (q : Position) : List Change → List Event
  | [] => []
  | c :: rest =>
    [.handed c (.ok q), .taken c, .saving key c.position]
      ++ handovers key (max q c.position) rest

/-- An entry of which a change comes. -/
def Assembles (catalog : Catalog) (e : LogEntry) (c : Change) : Prop := e.assemble catalog = .ok c

/-- The account of a drain that first asks for some saves, and then publishes some changes and
refuses so many others, by a stream that has come to `p` and a store that holds `q`. -/
def Account.publishing (key : Text) (asked : List Event) (p q : Position)
    (published : List Change) (refused : Nat) (fault : Option Fault) : Account :=
  ⟨published, refused, asked ++ handovers key q published, Change.furthest q published,
    Change.furthest p published, fault⟩

variable {entries : List LogEntry} {changes : List Change}

/-- A feed that skips publishes the records. -/
theorem drains_records [Furthest σ] (h : List.Forall₂ (Assembles catalog) entries changes) :
    ∀ {p q} {l : Logged (Feed σ)}, Stands catalog .skip key .streaming p q l.state →
      ∃ t, Drains l (arrivals entries) (.publishing key [] p q (Change.records p changes)
        (changes.length - (Change.records p changes).length) none) t := by
  induction h with
  | nil => exact fun hl => ⟨_, .nil hl⟩
  | @cons e c es cs hc _ ih =>
    intro p q l hl
    have hopen := hl.isOpen (by simp)
    rw [Change.records_cons]
    by_cases hlt : p < c.position
    · obtain ⟨m, hoffer, hm, htrace, hcount⟩ := hl.accept hc hlt
      obtain ⟨t, ht⟩ := ih hm
      have hd := ht.cons_accept hopen hoffer htrace hcount
      have hmax : max p c.position = c.position := max_eq_right (le_of_lt hlt)
      refine ⟨t, ?_⟩
      rw [if_pos hlt]
      unfold Account.publishing Change.furthest at hd ⊢
      simp only [List.map_cons, List.foldl_cons, hmax, List.length_cons, Nat.add_sub_add_right]
      exact hd
    · obtain ⟨f, m, hoffer, horder, hm, htrace, hcount⟩ := hl.refuse (by simp) hc (.inr (not_lt.1 hlt))
      obtain ⟨t, ht⟩ := ih (l := ⟨m.state, m.notices ++ [.skipped f]⟩) hm
      have hd := ht.cons_refuse hopen hoffer horder hm.policy htrace hcount
      have hle : (Change.records p cs).length ≤ cs.length := Change.length_records_le
      refine ⟨t, ?_⟩
      rw [if_neg hlt]
      unfold Account.publishing at hd ⊢
      rw [List.length_cons, Nat.succ_sub hle]
      exact hd

/-- A feed that fails publishes the ascent. -/
theorem drains_ascent [Furthest σ] (h : List.Forall₂ (Assembles catalog) entries changes) :
    ∀ {p q} {l : Logged (Feed σ)}, Stands catalog .fail key .streaming p q l.state →
      ∃ t fault, Drains l (arrivals entries) (.publishing key [] p q (Change.ascent p changes)
          (if fault.isSome then 1 else 0) fault) t
        ∧ (fault = none ↔ Change.ascent p changes = changes)
        ∧ ∀ f, fault = some f → f.family = .order := by
  induction h with
  | nil => exact fun hl => ⟨_, none, .nil hl, by simp [Change.ascent], by simp⟩
  | @cons e c es cs hc _ ih =>
    intro p q l hl
    have hopen := hl.isOpen (by simp)
    rw [Change.ascent_cons]
    by_cases hlt : p < c.position
    · obtain ⟨m, hoffer, hm, htrace, hcount⟩ := hl.accept hc hlt
      obtain ⟨t, fault, ht, hnone, horder⟩ := ih hm
      have hd := ht.cons_accept hopen hoffer htrace hcount
      have hmax : max p c.position = c.position := max_eq_right (le_of_lt hlt)
      refine ⟨t, fault, ?_, ?_, horder⟩
      · rw [if_pos hlt]
        unfold Account.publishing Change.furthest at hd ⊢
        simp only [List.map_cons, List.foldl_cons, hmax]
        exact hd
      · rw [if_pos hlt, List.cons_inj_right]
        exact hnone
    · obtain ⟨f, m, hoffer, horder, hm, htrace, hcount⟩ := hl.refuse (by simp) hc (.inr (not_lt.1 hlt))
      refine ⟨m, some f, ?_, ?_, ?_⟩
      · rw [if_neg hlt]
        exact .cons_fail hopen hoffer (by simp) htrace hcount hm _
      · simp [hlt]
      · intro g hg
        cases hg
        exact horder

/-- How a drain comes to stream from `p`, on a store that then holds `q'`: the stream has come that
far already, or the source announces the snapshot after so many changes that are too early. -/
inductive Start (f : Feed σ) (q : Position) :
    List Arrival → Nat → Position → Position → List Event → Prop
  | streaming (h : f.session.phase = .streaming) : Start f q [] 0 f.session.reached q []
  | snapshot {before : List LogEntry} {early : List Change} (h : f.session.phase = .snapshotting)
      (hbefore : List.Forall₂ (Assembles f.catalog) before early) (r : Position) :
      Start f q (arrivals before ++ [.item (.snapshot r)]) early.length r (max q r)
        [.saving f.session.key r]

/-- Before the snapshot a feed that skips passes over everything. -/
theorem drains_early (h : List.Forall₂ (Assembles catalog) entries changes) {rest : List Arrival}
    {a : Account} {p q : Position} (hrest : ∀ {l : Logged (Feed σ)},
      Stands catalog .skip key .snapshotting p q l.state → ∃ t, Drains l rest a t) :
    ∀ {l : Logged (Feed σ)}, Stands catalog .skip key .snapshotting p q l.state →
      ∃ t, Drains l (arrivals entries ++ rest) { a with refused := a.refused + changes.length } t := by
  induction h with
  | nil => exact hrest
  | @cons e c es cs hc _ ih =>
    intro l hl
    have hopen := hl.isOpen (by simp)
    obtain ⟨f, m, hoffer, horder, hm, htrace, hcount⟩ := hl.refuse (by simp) hc (.inl rfl)
    obtain ⟨t, ht⟩ := ih (l := ⟨m.state, m.notices ++ [.skipped f]⟩) hm
    exact ⟨t, ht.cons_refuse hopen hoffer horder hm.policy htrace hcount⟩

/-- After the snapshot the stream streams from there, and its account tells of the snapshot first. -/
theorem drains_snapshot [Furthest σ] (h : Stands catalog policy key .snapshotting p q l.state)
    (r : Position) :
    ∃ m, Stands catalog policy key .streaming r (max q r) m.state
      ∧ ∀ {asked rest published refused fault t},
        Drains m rest (.publishing key asked r (max q r) published refused fault) t →
        Drains l (.item (.snapshot r) :: rest)
          (.publishing key (.saving key r :: asked) r (max q r) published refused fault) t := by
  obtain ⟨m, htake, hm, htrace, hcount⟩ := h.completeSnapshot r
  have hopen := h.isOpen (by simp)
  exact ⟨m, hm, fun ht => ht.cons_snapshot hopen htake htrace hcount⟩

section Starting

variable {lead : List Arrival} {early : Nat} {q' : Position} {asked : List Event}
  (hstart : Start l.state q lead early p q' asked)
  (hentries : List.Forall₂ (Assembles l.state.catalog) entries changes)
  (hl : ∀ {phase}, l.state.session.phase = phase →
    Stands l.state.catalog policy l.state.session.key phase l.state.session.reached q l.state)

include hstart hentries hl

/-- However it starts, a feed that skips publishes the records. -/
theorem Start.drains_records [Furthest σ] (hpolicy : policy = .skip) :
    ∃ t, Drains l (lead ++ arrivals entries) (.publishing l.state.session.key asked p q'
      (Change.records p changes) (changes.length - (Change.records p changes).length + early) none)
      t := by
  subst hpolicy
  cases hstart with
  | streaming hphase => exact Feed.drains_records hentries (hl hphase)
  | @snapshot before early hphase hbefore =>
    rw [List.append_assoc]
    let a := Account.publishing l.state.session.key [.saving l.state.session.key p] p (max q p)
      (Change.records p changes) (changes.length - (Change.records p changes).length) none
    refine drains_early (a := a) hbefore ?_ (hl hphase)
    intro l' hl'
    obtain ⟨m, hm, hdrains⟩ := drains_snapshot hl' p
    obtain ⟨t, ht⟩ := Feed.drains_records hentries hm
    exact ⟨t, hdrains ht⟩

/-- One that fails publishes the ascent, if nothing comes too early. -/
theorem Start.drains_ascent [Furthest σ] (hpolicy : policy = .fail) (hearly : early = 0) :
    ∃ t fault, Drains l (lead ++ arrivals entries) (.publishing l.state.session.key asked p q'
        (Change.ascent p changes) (if fault.isSome then 1 else 0) fault) t
      ∧ (fault = none ↔ Change.ascent p changes = changes)
      ∧ ∀ f, fault = some f → f.family = .order := by
  subst hpolicy
  cases hstart with
  | streaming hphase => exact Feed.drains_ascent hentries (hl hphase)
  | @snapshot before early hphase hbefore =>
    cases hbefore with
    | cons _ _ => cases hearly
    | nil =>
      obtain ⟨m, hm, hdrains⟩ := drains_snapshot (hl hphase) p
      obtain ⟨t, fault, ht, hnone, horder⟩ := Feed.drains_ascent hentries hm
      exact ⟨t, fault, hdrains ht, hnone, horder⟩

omit hentries in
/-- And it ends with the first change that does. -/
theorem Start.drains_nothing (hpolicy : policy = .fail) (hearly : early ≠ 0) (rest : List Arrival) :
    ∃ f t, Drains l (lead ++ rest) ⟨[], 1, [], q, l.state.session.reached, some f⟩ t
      ∧ f.family = .order := by
  subst hpolicy
  cases hstart with
  | streaming hphase => exact absurd rfl hearly
  | @snapshot before early hphase hbefore =>
    cases hbefore with
    | nil => exact absurd rfl hearly
    | @cons e c es cs hc _ =>
      have hl := hl hphase
      have hopen := hl.isOpen (by simp)
      obtain ⟨f, m, hoffer, horder, hm, htrace, hcount⟩ := hl.refuse (by simp) hc (.inl rfl)
      have hd := Drains.cons_fail hopen hoffer (by simp) htrace hcount hm
        (arrivals es ++ [.item (.snapshot p)] ++ rest)
      exact ⟨f, m, hd, horder⟩

end Starting

/--
**What a drain publishes**, where the sink takes every change, the store saves
every position, and every entry of the source is a change.

A feed that skips publishes the records beyond the position that the stream
starts from, in their order, and counts the others as out of order, with all that
came before a snapshot. It comes to the furthest of that position and all
changes, and what is stored is the further of what was stored and the last change
published. A feed that fails publishes the changes before the first that is no
record, and ends with a fault of order exactly if there is one; what comes before
a snapshot ends it right away.
-/
theorem drain_publishes [Furthest σ] {l : Logged (Feed σ)} {q : Position}
    (hsink : ∀ k, l.state.session.sink = some k → k.Accepting)
    (hstore : Unfailing l.state.session.key l.state.session.store)
    (hq : l.state.session.stored = .ok q)
    {lead : List Arrival} {early : Nat} {p q' : Position} {asked : List Event}
    (hstart : Start l.state q lead early p q' asked)
    (hentries : List.Forall₂ (Assembles l.state.catalog) entries changes) :
    let key := l.state.session.key
    let last (published : List Change) := (published.map (·.position)).getLastD q'
    (l.state.policy = .skip →
        let published := Change.records p changes
        ∃ n t, drain (lead ++ arrivals entries) l = .ok ⟨published.length, n, none⟩ t
          ∧ Drains l (lead ++ arrivals entries) (.publishing key asked p q' published
            (changes.length - published.length + early) none) t
          ∧ t.state.session.reached = Change.furthest p changes
          ∧ t.state.session.stored = .ok (max q' (last published)))
      ∧ (l.state.policy = .fail → early = 0 →
        let published := Change.ascent p changes
        ∃ fault n t, drain (lead ++ arrivals entries) l = .ok ⟨published.length, n, fault⟩ t
          ∧ Drains l (lead ++ arrivals entries) (.publishing key asked p q' published
            (if fault.isSome then 1 else 0) fault) t
          ∧ (fault = none ↔ ∀ i < changes.length, Change.isRecord p changes i = true)
          ∧ (∀ f, fault = some f → f.family = .order)
          ∧ t.state.session.stored = .ok (max q' (last published)))
      ∧ (l.state.policy = .fail → early ≠ 0 →
        ∃ f n t, drain (lead ++ arrivals entries) l = .ok ⟨0, n, some f⟩ t
          ∧ Drains l (lead ++ arrivals entries) ⟨[], 1, [], q, l.state.session.reached, some f⟩ t
          ∧ f.family = .order) := by
  intro key last
  have hrecords : ∀ {p : Position}, Change.furthest q' (Change.records p changes) =
      max q' (last (Change.records p changes)) :=
    Change.furthest_of_ascending (List.pairwise_cons.1 Change.records_ascend).2
  have hascent : ∀ {p : Position}, Change.furthest q' (Change.ascent p changes) =
      max q' (last (Change.ascent p changes)) :=
    Change.furthest_of_ascending (List.pairwise_cons.1 Change.ascent_ascends).2
  have hl : ∀ {phase}, l.state.session.phase = phase →
      Stands l.state.catalog l.state.policy key phase l.state.session.reached q l.state :=
    fun hphase => ⟨rfl, rfl, rfl, hphase, rfl, hq, hsink, hstore⟩
  refine ⟨?_, ?_, ?_⟩
  · intro hpolicy published
    obtain ⟨t, ht⟩ := hstart.drains_records hentries hl hpolicy
    obtain ⟨n, hrun⟩ := ht.drain_run
    refine ⟨n, t, hrun, ht, ht.reached.trans Change.furthest_records, ?_⟩
    rw [ht.stored, ← hrecords]
    rfl
  · intro hpolicy hearly published
    obtain ⟨t, fault, ht, hnone, horder⟩ := hstart.drains_ascent hentries hl hpolicy hearly
    obtain ⟨n, hrun⟩ := ht.drain_run
    refine ⟨fault, n, t, hrun, ht, hnone.trans Change.ascent_eq_self_iff, horder, ?_⟩
    rw [ht.stored, ← hascent]
    rfl
  · intro hpolicy hearly
    obtain ⟨f, t, ht, horder⟩ := hstart.drains_nothing hl hpolicy hearly (arrivals entries)
    obtain ⟨n, hrun⟩ := ht.drain_run
    exact ⟨f, n, t, hrun, ht, horder⟩

/-- A stream at 10 is offered 11, 5, 11 again, 13 and 12. It publishes the first and the fourth. -/
theorem drain_publishes_two_of_five :
    let entry (n : Sequence) : LogEntry :=
      ⟨"t", .mark (.kind .insert), .known n, none, some (Keyed.ofList [("id", .int n)])⟩
    let change (n : Sequence) : Change := ⟨"t", .insert, .known n, ["id"], none, some [.int n]⟩
    let session : Session MemoryStore LogEntry :=
      { Session.waiting "s" MemoryStore.empty (some (.always .accept)) with
        phase := .streaming, reached := .known 10 }
    let l : Logged (Feed MemoryStore) :=
      ⟨⟨⟨Keyed.ofList [(.text "t", ⟨.text "t", ["id"]⟩)]⟩, .start "cdc", .skip, none, session⟩, []⟩
    let entries := [entry 11, entry 5, entry 11, entry 13, entry 12]
    let changes := [change 11, change 5, change 11, change 13, change 12]
    (∀ k, l.state.session.sink = some k → k.Accepting)
      ∧ Unfailing l.state.session.key l.state.session.store
      ∧ l.state.session.stored = .ok .null ∧ Start l.state .null [] 0 (.known 10) .null []
      ∧ List.Forall₂ (Assembles l.state.catalog) entries changes
      ∧ ∃ n t, drain (arrivals entries) l = .ok ⟨2, n, none⟩ t
        ∧ t.state.session.reached = .known 13 ∧ t.state.session.stored = .ok (.known 13)
        ∧ t.state.session.emitted = [.known 11, .known 13] := by
  intro entry change session l entries changes
  have hsink : ∀ k, l.state.session.sink = some k → k.Accepting := by
    intro k hk
    rw [← Option.some.inj hk]
    exact ⟨fun r hr => (List.not_mem_nil hr).elim, rfl⟩
  have hstart : Start l.state .null [] 0 (.known 10) .null [] := .streaming rfl
  have hassembles : ∀ n, Assembles l.state.catalog (entry n) (change n) := fun n =>
    LogEntry.assemble_insert _ rfl fun _ hname => hname
  have hentries : List.Forall₂ (Assembles l.state.catalog) entries changes :=
    .cons (hassembles 11) (.cons (hassembles 5) (.cons (hassembles 11) (.cons (hassembles 13)
      (.cons (hassembles 12) .nil))))
  have hstore := MemoryStore.unfailing "s" l.state.session.store
  obtain ⟨hskip, _⟩ := drain_publishes hsink hstore rfl hstart hentries
  obtain ⟨n, t, hrun, hdrains, hreached, hstored⟩ := hskip rfl
  have hrecords : Change.records (.known 10) changes = [change 11, change 13] := rfl
  rw [hrecords] at hrun hdrains hstored
  have hemitted : t.state.session.emitted = [.known 11, .known 13] := by
    unfold Session.emitted
    rw [hdrains.events]
    rfl
  exact ⟨hsink, hstore, rfl, hstart, hentries, n, t, hrun, hreached, hstored, hemitted⟩

end Feed

end Changefeed
