import Changefeed.Proofs.Stream.Emission
import Mathlib.Data.List.Sublists

/-!
# Sinks that offer changes themselves

A sink that is handed a change may offer the session another one before it ends,
and so on to any depth. The session checks a change before it hands it over and
counts it as taken afterwards, and what was taken in between is not looked at
again. So a change can be *overtaken*: while the sink has it, another one at its
place or beyond is taken, and then it is taken all the same. That leads the
session back, and what it has emitted may come a second time.

Nothing else does. `Passage` says what any run of calls does to a session that
has left for streaming, whatever its sink does: the session stands at the last
change taken, and what was taken ascends unless a change was overtaken.
-/

namespace Changefeed

namespace Event

/-- The positions of the changes that the sink took, oldest first. -/
def accepted (es : List Event) : List Position := es.filterMap taken?

/-- While the sink had a change it took one at the same place or beyond, and then that change. -/
def Overtaken (es : List Event) : Prop :=
  ∃ c d stored, c.position ≤ d.position ∧ [handed c stored, taken d, taken c].Sublist es

theorem accepted_append (es es' : List Event) : accepted (es ++ es') = accepted es ++ accepted es' :=
  List.filterMap_append

theorem taken_mem_of_accepted {es : List Event} {p : Position} (h : p ∈ accepted es) :
    ∃ c, taken c ∈ es ∧ c.position = p := by
  obtain ⟨e, he, hp⟩ := List.mem_filterMap.1 h
  cases e with
  | taken c => exact ⟨c, he, Option.some.inj hp⟩
  | handed c stored => cases hp
  | saving key q => cases hp

theorem Overtaken.mono {es es' : List Event} (h : Overtaken es) (hs : es.Sublist es') :
    Overtaken es' := by
  obtain ⟨c, d, stored, hle, hsub⟩ := h
  exact ⟨c, d, stored, hle, hsub.trans hs⟩

/-- What was overtaken came out behind what overtook it. -/
theorem Overtaken.not_ascending {es : List Event} (h : Overtaken es) :
    ¬(accepted es).Pairwise (· < ·) := by
  obtain ⟨c, d, stored, hle, hsub⟩ := h
  intro hasc
  have hpair : [d.position, c.position].Sublist (accepted es) := hsub.filterMap taken?
  have hlt : d.position < c.position := List.pairwise_pair.1 (hasc.sublist hpair)
  exact not_lt.2 hle hlt

end Event

namespace Session

variable {σ : Type} [CheckpointStore σ]

open Event

/-! ## Passages -/

/-- A session with a sink that came from one state of streaming to another, and what happened. -/
structure Passage (es : List Event) (s s' : Session σ Change) : Prop where
  record : s'.trace = s.trace ++ es
  left : s'.phase ≠ .snapshotting
  sink : s'.sink.isSome
  /-- It stands at the change that was taken last. -/
  reached : s'.reached = (accepted es).getLastD s.reached
  order : (s.reached :: accepted es).Pairwise (· < ·) ∨ Overtaken es

/-- Where a session can get to. -/
def Leads (s s' : Session σ Change) : Prop := ∃ es, Passage es s s'

omit [CheckpointStore σ] in
theorem Leads.refl {s : Session σ Change} (hp : s.phase ≠ .snapshotting) (hk : s.sink.isSome) :
    Leads s s :=
  ⟨[], (List.append_nil _).symm, hp, hk, rfl, .inl (List.pairwise_singleton _ _)⟩

theorem getLastD_append (q : Position) (ps ps' : List Position) :
    (ps ++ ps').getLastD q = ps'.getLastD (ps.getLastD q) := by
  simp only [List.getLastD_eq_getLast?, List.getLast?_append]
  cases ps'.getLast? <;> rfl

/-- Everything in an ascending chain is at most its end. -/
theorem le_getLastD {q x : Position} {ps : List Position} (h : (q :: ps).Pairwise (· < ·))
    (hx : x ∈ q :: ps) : x ≤ ps.getLastD q := by
  have hle := (h.imp le_of_lt).rel_getLast hx
  rwa [List.getLast_eq_getLastD] at hle

/-- An ascending chain goes on with one that ascends from its end. -/
theorem ascending_append {q : Position} {ps ps' : List Position} (h : (q :: ps).Pairwise (· < ·))
    (h' : (ps.getLastD q :: ps').Pairwise (· < ·)) : (q :: (ps ++ ps')).Pairwise (· < ·) := by
  rw [← List.cons_append]
  refine List.pairwise_append.2 ⟨h, (List.pairwise_cons.1 h').2, fun x hx y hy => ?_⟩
  exact lt_of_le_of_lt (le_getLastD h hx) ((List.pairwise_cons.1 h').1 y hy)

omit [CheckpointStore σ] in
theorem Passage.trans {es es' : List Event} {s t u : Session σ Change} (h : Passage es s t)
    (h' : Passage es' t u) : Passage (es ++ es') s u := by
  refine ⟨?_, h'.left, h'.sink, ?_, ?_⟩
  · rw [h'.record, h.record, List.append_assoc]
  · rw [h'.reached, h.reached, accepted_append, getLastD_append]
  · rcases h.order with hasc | hover
    · rcases h'.order with hasc' | hover
      · rw [h.reached] at hasc'
        rw [accepted_append]
        exact .inl (ascending_append hasc hasc')
      · exact .inr (hover.mono (List.sublist_append_right _ _))
    · exact .inr (hover.mono (List.sublist_append_left _ _))

omit [CheckpointStore σ] in
theorem Leads.trans {s t u : Session σ Change} (h : Leads s t) (h' : Leads t u) : Leads s u := by
  obtain ⟨es, h⟩ := h
  obtain ⟨es', h'⟩ := h'
  exact ⟨es ++ es', h.trans h'⟩

omit [CheckpointStore σ] in
/-- A move by which nothing is taken leads on. -/
theorem Leads.move {s₀ s s' : Session σ Change} (h : Leads s₀ s) (es : List Event)
    (ht : s'.trace = s.trace ++ es) (hn : accepted es = []) (hp : s'.phase ≠ .snapshotting)
    (hk : s'.sink.isSome) (hr : s'.reached = s.reached) : Leads s₀ s' := by
  refine h.trans ⟨es, ht, hp, hk, ?_, ?_⟩
  · rw [hn]
    exact hr
  · rw [hn]
    exact .inl (List.pairwise_singleton _ _)

omit [CheckpointStore σ] in
/--
A change that lay ahead is handed over, something happens, and it is taken. If it
does not lie ahead any more, whatever the session has come to in the meantime has
overtaken it.
-/
theorem Passage.take {es : List Event} {s h t : Session σ Change} {c : Change}
    {stored : Except Fault Position} (hr : h.reached = s.reached)
    (ht : h.trace = s.trace ++ [.handed c stored]) (hlt : s.reached < c.position)
    (hpass : Passage es h t) :
    Passage (.handed c stored :: (es ++ [.taken c])) s
      { t with reached := c.position, trace := t.trace ++ [.taken c] } := by
  have haccepted : accepted (.handed c stored :: (es ++ [.taken c])) = accepted es ++ [c.position] :=
    accepted_append es [.taken c]
  refine ⟨?_, hpass.left, hpass.sink, ?_, ?_⟩
  · show t.trace ++ _ = _
    rw [hpass.record, ht, List.append_assoc, List.append_assoc]
    rfl
  · rw [haccepted, getLastD_append]
    rfl
  · have hlast : t.reached = (accepted es).getLastD s.reached := by rw [hpass.reached, hr]
    rcases hpass.order with hasc | hover
    · rw [hr] at hasc
      rw [haccepted]
      by_cases hahead : t.reached < c.position
      · rw [hlast] at hahead
        exact .inl (ascending_append hasc (List.pairwise_pair.2 hahead))
      · right
        have hcome : t.reached ∈ s.reached :: accepted es := hlast ▸ List.getLastD_mem_cons
        have hne : t.reached ≠ s.reached := fun heq => hahead (heq ▸ hlt)
        obtain ⟨d, hmem, hd⟩ := taken_mem_of_accepted ((List.mem_cons.1 hcome).resolve_left hne)
        refine ⟨c, d, stored, hd ▸ not_lt.1 hahead, .cons_cons _ ?_⟩
        exact (List.singleton_sublist.2 hmem).append (.refl [Event.taken c])
    · exact .inr (hover.mono (.cons _ (List.sublist_append_left _ _)))

/-! ## What calls do -/

variable {s₀ : Session σ Change}

theorem Leads.save (p : Position) : Act.Keeps (Leads s₀) (Session.save p) := by
  intro s hs
  obtain ⟨_, hpass⟩ := id hs
  rw [save_after]
  exact hs.move [.saving s.state.key p] rfl rfl hpass.left hpass.sink rfl

omit [CheckpointStore σ] in
theorem Leads.stop : Act.Keeps (Leads s₀) (Session.stop (σ := σ)) := by
  intro s hs
  obtain ⟨_, hpass⟩ := id hs
  obtain ⟨ns, hstop⟩ := stop_run s
  rw [Act.after_of_ok hstop]
  exact hs.move [] (List.append_nil _).symm rfl (by simp) hpass.sink rfl

/-- A session that has left for streaming completes no snapshot, -/
theorem Leads.completeSnapshot (p : Position) :
    Act.Keeps (Leads s₀) (Session.completeSnapshot p) := by
  intro s hs
  obtain ⟨_, hpass⟩ := id hs
  rcases completeSnapshot_cases p s with ⟨_, f, hf⟩ | ⟨hw, _⟩ | ⟨hw, _⟩
  · rw [Act.after_of_error hf]
    exact hs
  · exact absurd hw hpass.left
  · exact absurd hw hpass.left

/-- nor does it begin to stream once more. -/
theorem Leads.beginStreaming (place : Option Position) :
    Act.Keeps (Leads s₀) (Session.beginStreaming place) := by
  intro s hs
  obtain ⟨_, hpass⟩ := id hs
  rcases beginStreaming_cases place s with ⟨f, hf⟩ | ⟨hw, _⟩
  · rw [Act.after_of_error hf]
    exact hs
  · exact absurd hw hpass.left

theorem Leads.commit (p : Position) : Act.Keeps (Leads s₀) (Session.commit (α := Change) p) := by
  intro s hs
  rcases commit_cases p s with ⟨_, f, hf⟩ | ⟨_, hsave⟩
  · rw [Act.after_of_error hf]
    exact hs
  · rw [Act.after_congr hsave]
    exact Leads.save p s hs

/-- The session after it counted a change as taken and asked the store to save that. -/
theorem taken_settle_after (c : Change) (t : Logged (Session σ Change)) :
    ((recordTaken c >>= fun _ => settle c).after t).state = { t.state with
      reached := c.position
      trace := t.state.trace ++ [.taken c] ++ [.saving t.state.key c.position]
      store := savedStore c.position ⟨{ t.state with
        reached := c.position, trace := t.state.trace ++ [.taken c] }, t.notices⟩ } :=
  save_after c.position ⟨{ t.state with
    reached := c.position, trace := t.state.trace ++ [.taken c] }, t.notices⟩

/-- A change that lay ahead is handed over, and taken if that ends normally. -/
theorem Leads.hand {c : Change} {s h : Session σ Change} {ns : List Notice}
    {x : Act (Session σ Change) Unit} (hs : Leads s₀ s) (hlt : s.reached < c.position)
    (hr : h.reached = s.reached) (ht : h.trace = s.trace ++ [.handed c s.stored])
    (hp : h.phase ≠ .snapshotting) (hk : h.sink.isSome) (hx : Act.Keeps (Leads h) x) :
    Leads s₀ ((x >>= fun _ => recordTaken c >>= fun _ => settle c).after ⟨h, ns⟩).state := by
  have hreact := hx ⟨h, ns⟩ (.refl hp hk)
  cases hrun : x ⟨h, ns⟩ with
  | error f t =>
    -- the sink refuses the change, and what it did before that stays
    rw [Act.after_of_error hrun] at hreact
    rw [Act.after_bind_of_error hrun]
    have hhanded : Leads s₀ h := hs.move [.handed c s.stored] ht rfl hp hk hr
    exact hhanded.trans hreact
  | ok _ t =>
    rw [Act.after_of_ok hrun] at hreact
    rw [Act.after_bind_of_ok hrun, taken_settle_after]
    obtain ⟨es, hpass⟩ := hreact
    have htake : Leads s₀ { t.state with
        reached := c.position, trace := t.state.trace ++ [.taken c] } :=
      hs.trans ⟨_, hpass.take hr ht hlt⟩
    exact htake.move [.saving t.state.key c.position] rfl rfl hpass.left hpass.sink rfl

/-- An offer made by the sink. -/
theorem Leads.deliver {react : Change → Act (Session σ Change) Unit} (c : Change)
    (hreact : ∀ h : Session σ Change, Act.Keeps (Leads h) (react c)) :
    Act.Keeps (Leads s₀) (Session.deliver (handOver react) c) := by
  intro s hs
  obtain ⟨_, hpass⟩ := id hs
  cases hrefusal : s.state.refusal? c with
  | some f =>
    have hrun : Session.deliver (handOver react) c s = .error f s :=
      Act.bind_of_error (requireNext_of_refusal hrefusal)
    rw [Act.after_of_error hrun]
    exact hs
  | none =>
    have hrun : Session.deliver (handOver react) c s =
        (react c >>= fun _ => recordTaken c >>= fun _ => settle c) ⟨{ s.state with
          trace := s.state.trace ++ [.handed c s.state.stored] }, s.notices⟩ := by
      unfold Session.deliver
      rw [Act.bind_of_ok (requireNext_of_none hrefusal)]
      unfold handOver recordHanded record
      simp only [bind_assoc, Act.state_bind, Act.update_bind]
    rw [Act.after_congr hrun]
    exact hs.hand (refusal?_eq_none.1 hrefusal).2 rfl rfl hpass.left hpass.sink (hreact _)

/-- **Whatever a sink does with a change leads on**, however deep its offers nest. -/
theorem Leads.carryOut (r : Reaction Change) :
    ∀ (c : Change) (s₀ : Session σ Change), Act.Keeps (Leads s₀) (r.carryOut callbacks c) := by
  induction r with
  | accept => exact fun _ _ => .pure ()
  | refuse f => exact fun _ _ => .fail f
  | stop next ih => exact fun c s₀ => .bind Leads.stop fun _ => ih c s₀
  | completeSnapshot next ih =>
    exact fun c s₀ => .bind (Leads.completeSnapshot c.position) fun _ => ih c s₀
  | offer more inner next ihInner ihNext =>
    intro c s₀
    have hoffer : Act.Keeps (Leads s₀) (Session.deliver (handOver (inner.carryOut callbacks)) more) :=
      Leads.deliver more fun h => ihInner more h
    exact .bind hoffer.outcome fun ended => ihNext ended c s₀

theorem Leads.advance (c : Change) : Act.Keeps (Leads s₀) (Session.advance c) := by
  intro s hs
  obtain ⟨_, hpass⟩ := id hs
  cases hrefusal : s.state.refusal? c with
  | some f =>
    rw [Act.after_of_error (advance_refused hrefusal)]
    exact hs
  | none =>
    obtain ⟨k, hk⟩ := Option.isSome_iff_exists.1 hpass.sink
    rw [Act.after_congr (advance_of_sink hk c hrefusal)]
    exact hs.hand (refusal?_eq_none.1 hrefusal).2 rfl rfl hpass.left rfl
      (Leads.carryOut k.next c _)

/-- **Every call leads on**, whichever way it ends. -/
theorem Leads.call (k : Call) : Act.Keeps (Leads s₀) (Session.call k) := by
  cases k with
  | completeSnapshot p => exact Leads.completeSnapshot p
  | beginStreaming place => exact Leads.beginStreaming place
  | advance c => exact Leads.advance c
  | commit p => exact Leads.commit p
  | stop => exact Leads.stop

theorem leads_afterCalls {l : Logged (Session σ Change)} (h : Leads s₀ l.state)
    (calls : List Call) : Leads s₀ (afterCalls l calls).state := by
  induction calls generalizing l with
  | nil => exact h
  | cons k rest ih => exact ih (Leads.call k l h)

/-- A change that was taken, with all that its sink did besides, is where the session stands. -/
theorem advance_ok_reached {s t : Logged (Session σ Change)} {c : Change} (hk : s.state.sink.isSome)
    (h : Session.advance c s = .ok () t) :
    t.state.reached = c.position ∧ (accepted t.state.trace).getLast? = some c.position := by
  cases hrefusal : s.state.refusal? c with
  | some f =>
    rw [advance_refused hrefusal] at h
    cases h
  | none =>
    obtain ⟨k, hk⟩ := Option.isSome_iff_exists.1 hk
    rw [advance_of_sink hk c hrefusal] at h
    obtain ⟨_, u, hreact, hsettle⟩ := Act.bind_eq_ok.1 h
    have hafter := taken_settle_after c u
    rw [Act.after_of_ok hsettle] at hafter
    have htaken : accepted t.state.trace = accepted u.state.trace ++ [c.position] := by
      rw [hafter]
      show accepted (u.state.trace ++ [.taken c] ++ [.saving u.state.key c.position]) = _
      rw [accepted_append, accepted_append]
      exact List.append_nil _
    exact ⟨by rw [hafter], by rw [htaken, List.getLast?_concat]⟩

/-! ## The order and what breaks it -/

/--
**A stream emits in order exactly as long as no change is overtaken.**

A session streams, with a sink that does whatever it likes while it has a change:
stop the stream, fail, and above all offer changes, to any depth. After any calls,
however they end, the session stands at the change that was taken last. What was
taken ascends from where the session stood if and only if no change was overtaken;
then nothing is taken twice and nothing lies beyond where the session stands. And
a change that the owner offered and that was taken is always where the session
stands afterwards, also when its sink took changes beyond it in the meantime.
-/
theorem ascending_iff_not_overtaken {s : Logged (Session σ Change)}
    (hp : s.state.phase = .streaming) (hk : s.state.sink.isSome) (calls : List Call) :
    let u := afterCalls s calls
    ∃ es, u.state.trace = s.state.trace ++ es
      ∧ u.state.reached = (accepted es).getLastD s.state.reached
      ∧ ((s.state.reached :: accepted es).Pairwise (· < ·) ↔ ¬Overtaken es)
      ∧ (¬Overtaken es → (accepted es).Nodup ∧ ∀ p ∈ accepted es, p ≤ u.state.reached)
      ∧ ∀ c v, Session.advance c u = .ok () v →
          v.state.reached = c.position ∧ (accepted v.state.trace).getLast? = some c.position := by
  intro u
  have hleft : s.state.phase ≠ .snapshotting := by rw [hp]; simp
  obtain ⟨es, hpass⟩ := leads_afterCalls (l := s) (.refl hleft hk) calls
  refine ⟨es, hpass.record, hpass.reached, ?_, fun hover => ?_, fun c v hv => ?_⟩
  · refine ⟨fun hasc hover => ?_, fun hover => hpass.order.resolve_right hover⟩
    exact hover.not_ascending (List.pairwise_cons.1 hasc).2
  · have hasc := hpass.order.resolve_right hover
    refine ⟨(List.pairwise_cons.1 hasc).2.imp ne_of_lt, fun p hmem => ?_⟩
    rw [hpass.reached]
    exact le_getLastD hasc (List.mem_cons_of_mem _ hmem)
  · exact advance_ok_reached hpass.sink hv

/-- While it has the change at 15 the sink offers the one at 12, and while it has that, the one at
11: they come out in order, and each of them once. -/
theorem ascending_through_nested_offers :
    let change (n : Sequence) : Change := ⟨"t", .insert, .known n, [], none, some []⟩
    let k : Sink Change := ⟨[.offer (change 12) (.offer (change 11) .accept fun _ => .accept)
      fun _ => .accept], .accept⟩
    let s : Logged (Session MemoryStore Change) :=
      ⟨{ waiting "s" MemoryStore.empty (some k) with phase := .streaming, reached := .known 10 }, []⟩
    let calls := [.advance (change 15), .advance (change 12), .advance (change 16)]
    ∃ es, (afterCalls s calls).state.trace = es ∧ ¬Overtaken es
      ∧ accepted es = [.known 11, .known 12, .known 15, .known 16] ∧ (accepted es).Nodup
      ∧ ∀ p ∈ accepted es, p ≤ (afterCalls s calls).state.reached := by
  intro change k s calls
  obtain ⟨es, hrecord, _, hiff, hkept, _⟩ := ascending_iff_not_overtaken (s := s) rfl rfl calls
  have hes : (afterCalls s calls).state.trace = es := hrecord.trans (List.nil_append es)
  have haccepted : accepted es = [.known 11, .known 12, .known 15, .known 16] := by
    rw [← hes]
    decide +kernel
  have hasc : (Position.known 10 :: accepted es).Pairwise (· < ·) := by
    rw [haccepted]
    decide +kernel
  have hnot : ¬Overtaken es := hiff.1 hasc
  exact ⟨es, hes, hnot, haccepted, hkept hnot⟩

/-- While it has the change at 15 the sink offers the one at 20. The session stands at 15 then, with
20 taken, and takes 20 a second time. -/
theorem overtaken_taken_twice :
    let change (n : Sequence) : Change := ⟨"t", .insert, .known n, [], none, some []⟩
    let k : Sink Change := ⟨[.offer (change 20) .accept fun _ => .accept], .accept⟩
    let s : Logged (Session MemoryStore Change) :=
      ⟨{ waiting "s" MemoryStore.empty (some k) with phase := .streaming, reached := .known 10 }, []⟩
    let t := (Session.advance (change 15)).after s
    let u := (Session.advance (change 20)).after t
    (Session.advance (change 15) s = .ok () t ∧ t.state.reached = .known 15
        ∧ ¬∀ p ∈ t.state.emitted, p ≤ t.state.reached)
      ∧ Session.advance (change 20) t = .ok () u
      ∧ u.state.emitted = [.known 20, .known 15, .known 20] ∧ ¬u.state.emitted.Nodup := by
  intro change k s t u
  have hfirst : t.state.emitted = [.known 20, .known 15] := by decide +kernel
  have hreached : t.state.reached = .known 15 := by decide +kernel
  have hboth : u.state.emitted = [.known 20, .known 15, .known 20] := by decide +kernel
  refine ⟨⟨Act.eq_ok_of_endsWell (by decide +kernel), hreached, ?_⟩,
    Act.eq_ok_of_endsWell (by decide +kernel), hboth, ?_⟩
  · rw [hfirst, hreached]
    decide +kernel
  · rw [hboth]
    decide +kernel

end Session

end Changefeed
