import Changefeed.Proofs.Stream.Emission

/-!
# Sessions whose sink calls nothing back

A silent sink takes a change or refuses it and does nothing else. So what becomes
of a change that a session with such a sink is to take can be written down as a
function of four things: whether the session refuses it, whether it has a sink,
whether that refuses it, and how the store ends when it is to save it
(`advance_silent`).
-/

namespace Changefeed

/-! ## Silent sinks -/

/-- A reaction that calls nothing back: it takes the change or refuses it. -/
def Reaction.Silent {α : Type} : Reaction α → Prop
  | accept | refuse _ => True
  | stop _ | completeSnapshot _ | offer .. => False

namespace Reaction

variable {S α : Type}

/-- The fault that a silent reaction ends with, if it refuses the change. -/
def fault? : Reaction α → Option Fault
  | refuse f => some f
  | accept | stop _ | completeSnapshot _ | offer .. => none

/-- Carrying out a silent reaction does nothing but end as it does. -/
theorem carryOut_silent (calls : Callbacks S α) {r : Reaction α} (hr : r.Silent) (c : Change)
    (s : Logged S) : r.carryOut calls c s = match r.fault? with
      | some f => .error f s
      | none => .ok () s := by
  cases r with
  | accept => rfl
  | refuse f => rfl
  | stop next => exact hr.elim
  | completeSnapshot next => exact hr.elim
  | offer more inner next => exact hr.elim

end Reaction

/-- A sink all of whose reactions have a property. -/
structure Sink.All {α : Type} (P : Reaction α → Prop) (k : Sink α) : Prop where
  upcoming : ∀ r ∈ k.upcoming, P r
  standing : P k.standing

namespace Sink

variable {α : Type} {P : Reaction α → Prop} {k : Sink α}

theorem All.next (h : k.All P) : P k.next := by
  unfold Sink.next
  cases hu : k.upcoming with
  | nil => exact h.standing
  | cons r rest => exact h.upcoming r (by rw [hu]; exact List.mem_cons_self)

theorem All.advance (h : k.All P) : k.advance.All P :=
  ⟨fun r hr => h.upcoming r (List.mem_of_mem_tail hr), h.standing⟩

end Sink

/-- A sink that takes every change and does nothing else. -/
structure Sink.Accepting {α : Type} (k : Sink α) : Prop where
  upcoming : ∀ r ∈ k.upcoming, r = .accept
  standing : k.standing = .accept

namespace Sink

variable {α : Type} {k : Sink α}

theorem Accepting.next (h : k.Accepting) : k.next = .accept := by
  unfold Sink.next
  cases hu : k.upcoming with
  | nil => exact h.standing
  | cons r rest => exact h.upcoming r (by rw [hu]; exact List.mem_cons_self)

theorem Accepting.advance (h : k.Accepting) : k.advance.Accepting :=
  ⟨fun r hr => h.upcoming r (List.mem_of_mem_tail hr), h.standing⟩

/-- An accepting sink calls nothing back. -/
theorem Accepting.silent (h : k.Accepting) : k.All Reaction.Silent :=
  ⟨fun r hr => by rw [h.upcoming r hr]; trivial, by rw [h.standing]; trivial⟩

end Sink

namespace Session

variable {σ α : Type}

/-! ## The sink of a session -/

/-- The reaction of the sink to the change that it is handed next. Without a sink every change is
taken. -/
def reaction (s : Session σ α) : Reaction α :=
  match s.sink with
  | none => .accept
  | some k => k.next

/-- Whether the sink of a session, if it has one, is silent. -/
def Silent (s : Session σ α) : Prop := ∀ k, s.sink = some k → k.All Reaction.Silent

theorem Silent.reaction {s : Session σ α} (h : s.Silent) : s.reaction.Silent := by
  unfold Session.reaction
  cases hk : s.sink with
  | none => trivial
  | some k => exact (h k hk).next

theorem Silent.of_advanced {s t : Session σ α} (h : s.Silent)
    (hs : t.sink = s.sink.map Sink.advance) : t.Silent := by
  intro k hk
  rw [hs] at hk
  obtain ⟨k', hk', rfl⟩ := Option.map_eq_some_iff.1 hk
  exact (h k' hk').advance

/-- Whether the sink of a session, if it has one, is quiet. -/
def Quiet (s : Session σ α) : Prop := ∀ k, s.sink = some k → k.Quiet

theorem Quiet.reaction {s : Session σ α} (h : s.Quiet) : s.reaction.Quiet := by
  unfold Session.reaction
  cases hk : s.sink with
  | none => trivial
  | some k => exact (h k hk).next

theorem Quiet.of_advanced {s t : Session σ α} (h : s.Quiet)
    (hs : t.sink = s.sink.map Sink.advance) : t.Quiet := by
  intro k hk
  rw [hs] at hk
  obtain ⟨k', hk', rfl⟩ := Option.map_eq_some_iff.1 hk
  exact (h k' hk').advance

/-- A session that streams goes on streaming, unless its sink stops it. -/
def Leaves (s : Session σ α) (ph : Phase) : Prop :=
  ph = .streaming ∨ ph = .stopped ∧ ¬s.reaction.Silent

variable [CheckpointStore σ]

/-- The session when its sink was handed a change and has reacted, which left it in a phase. -/
def reacted (s : Session σ α) (c : Change) (ph : Phase) : Session σ α :=
  { s with
    phase := ph
    sink := s.sink.map Sink.advance
    trace := s.trace ++ [.handed c s.stored] }

/-- The session when its sink took a change, and trying to save it made a store `store` of it. -/
def settled (s : Session σ α) (c : Change) (ph : Phase) (store : σ) : Session σ α :=
  { s with
    phase := ph
    reached := c.position
    store
    sink := s.sink.map Sink.advance
    trace := s.trace ++ [.handed c s.stored, .taken c, .saving s.key c.position] }

/-- A change that the sink takes is published, whether or not it is saved. -/
theorem published_settled (s : Session σ α) (c : Change) (ph : Phase) (store : σ) :
    (s.settled c ph store).published = s.published ++ [c] := by
  unfold published settled
  rw [List.filterMap_append]
  rfl

/-- A change that the sink refuses is not emitted. -/
theorem emitted_reacted (s : Session σ α) (c : Change) (ph : Phase) :
    (s.reacted c ph).emitted = s.emitted := by
  simp [emitted, reacted, Event.taken?, Event.change?]

/-- One that it takes is, whether or not it is saved. -/
theorem emitted_settled (s : Session σ α) (c : Change) (ph : Phase) (store : σ) :
    (s.settled c ph store).emitted = s.emitted ++ [c.position] := by
  rw [emitted_eq, emitted_eq, published_settled, List.map_append]
  rfl

/-! ## Taking a change -/

/-- **What becomes of a change** that a session with a silent sink is to take. -/
theorem advance_silent {s : Logged (Session σ Change)} (hs : s.state.Silent) (c : Change) :
    advance c s = match s.state.refusal? c with
      | some f => .error f s
      | none =>
        match s.state.sink with
        | none => .ok () ⟨{ s.state with reached := c.position }, s.notices⟩
        | some k =>
          match k.next.fault? with
          | some f => .error f ⟨s.state.reacted c s.state.phase, s.notices⟩
          | none =>
            match CheckpointStore.save s.state.key c.position ⟨s.state.store, s.notices⟩ with
            | .ok _ u => .ok () ⟨s.state.settled c s.state.phase u.state, u.notices⟩
            | .error f u => .error f ⟨s.state.settled c s.state.phase u.state, u.notices⟩ := by
  cases hr : s.state.refusal? c with
  | some f => exact advance_refused hr
  | none =>
    cases hk : s.state.sink with
    | none =>
      rcases advance_without_sink hk c with ⟨f, hf, _⟩ | ⟨_, _, hrun⟩
      · rw [hr] at hf
        cases hf
      · exact hrun
    | some k =>
      have hreact := Reaction.carryOut_silent callbacks (hs k hk).next c
        ⟨s.state.handed k c, s.notices⟩
      have hhanded : s.state.handed k c = s.state.reacted c s.state.phase := by
        unfold handed reacted
        rw [hk]
        rfl
      rw [advance_of_sink hk c hr, Act.bind_run, hreact]
      dsimp only
      cases k.next.fault? with
      | some f => rw [hhanded]
      | none =>
        dsimp only
        let t : Session σ Change := { (s.state.reacted c s.state.phase) with
          reached := c.position
          trace := (s.state.reacted c s.state.phase).trace ++ [.taken c] }
        have hsettle : (recordTaken c >>= fun _ => settle c) ⟨s.state.handed k c, s.notices⟩ =
            Session.save c.position ⟨t, s.notices⟩ := by
          rw [hhanded]
          rfl
        have hkey : t.key = s.state.key := rfl
        have hstore : t.store = s.state.store := rfl
        rw [hsettle, save_run, Act.within]
        dsimp only
        rw [hkey, hstore]
        unfold settled
        cases CheckpointStore.save s.state.key c.position ⟨s.state.store, s.notices⟩ <;>
          simp [t, reacted]

end Session

end Changefeed
