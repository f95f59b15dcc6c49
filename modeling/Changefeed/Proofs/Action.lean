import Changefeed.Act

/-!
# What actions leave behind

An action that ends with a fault has still done what it did until then, so most
of what can be said of an action is said of the state it leaves, *however it
ends*: `Act.after` is that state, and `Act.Keeps` says that a property of states
survives. The two laws of sequencing below it take a run apart into the runs of
its parts.
-/

namespace Changefeed.Act

variable {S T α β : Type}

/-- The state that an action leaves, whether it ends with a value or with a fault. -/
def after (act : Act S α) (s : Logged S) : Logged S :=
  match act s with
  | .ok _ t => t
  | .error _ t => t

theorem after_of_ok {act : Act S α} {s t : Logged S} {a : α} (h : act s = .ok a t) :
    act.after s = t := by
  unfold after; rw [h]

theorem after_of_error {act : Act S α} {s t : Logged S} {f : Fault} (h : act s = .error f t) :
    act.after s = t := by
  unfold after; rw [h]

/-- Whether an action ends normally. -/
def endsWell (act : Act S α) (s : Logged S) : Bool :=
  match act s with
  | .ok .. => true
  | .error .. => false

theorem endsWell_of_ok {act : Act S α} {s t : Logged S} {a : α} (h : act s = .ok a t) :
    act.endsWell s = true := by
  unfold endsWell; rw [h]

theorem endsWell_of_error {act : Act S α} {s t : Logged S} {f : Fault} (h : act s = .error f t) :
    act.endsWell s = false := by
  unfold endsWell; rw [h]

theorem eq_ok_of_endsWell {act : Act S Unit} {s : Logged S} (h : act.endsWell s = true) :
    act s = .ok () (act.after s) := by
  unfold endsWell at h
  unfold after
  cases hr : act s with
  | ok a t => rfl
  | error f t => rw [hr] at h; cases h

theorem eq_error_of_not_endsWell {act : Act S α} {s : Logged S} (h : act.endsWell s = false) :
    ∃ f, act s = .error f (act.after s) := by
  unfold endsWell at h
  unfold after
  cases hr : act s with
  | ok a t => rw [hr] at h; cases h
  | error f t => exact ⟨f, rfl⟩

/-- Actions that run alike leave the same state. -/
theorem after_congr {act act' : Act S α} {s s' : Logged S} (h : act s = act' s') :
    act.after s = act'.after s' := by
  unfold after; rw [h]

/-- Acting on a part leaves the whole with what has become of the part. -/
theorem run_within (part : S → T) (put : T → S → S) (act : Act T α) (s : Logged S) :
    (within part put act).after s =
      ⟨put (act.after ⟨part s.state, s.notices⟩).state s.state,
        (act.after ⟨part s.state, s.notices⟩).notices⟩ := by
  unfold after within
  cases act ⟨part s.state, s.notices⟩ with
  | ok a t => rfl
  | error f t => rfl

theorem after_within (part : S → T) (put : T → S → S) (act : Act T α) (s : Logged S) :
    ((within part put act).after s).state =
      put (act.after ⟨part s.state, s.notices⟩).state s.state :=
  congrArg Logged.state (run_within part put act s)

/-- What an action ends with. -/
def result (act : Act S α) (s : Logged S) : Except Fault α :=
  match act s with
  | .ok a _ => .ok a
  | .error f _ => .error f

/-- What actions end with, one after the other, each on the state that the one before left. -/
def results {ι : Type} (act : ι → Act S α) (s : Logged S) : List ι → List (Except Fault α)
  | [] => []
  | i :: rest => (act i).result s :: results act ((act i).after s) rest

theorem result_of_ok {act : Act S α} {s t : Logged S} {a : α} (h : act s = .ok a t) :
    act.result s = .ok a := by
  unfold result; rw [h]

theorem result_of_error {act : Act S α} {s t : Logged S} {f : Fault} (h : act s = .error f t) :
    act.result s = .error f := by
  unfold result; rw [h]

/-- Acting on a part ends as the action on the part does. -/
theorem result_within (part : S → T) (put : T → S → S) (act : Act T α) (s : Logged S) :
    (within part put act).result s = act.result ⟨part s.state, s.notices⟩ := by
  unfold result within
  cases act ⟨part s.state, s.notices⟩ with
  | ok a t => rfl
  | error f t => rfl

theorem result_congr {act act' : Act S α} {s s' : Logged S} (h : act s = act' s') :
    act.result s = act'.result s' := by
  unfold result; rw [h]

/-- Actions on related states that end alike and leave related states again end alike one after the
other. -/
theorem results_congr {ι : Type} {act : ι → Act S α} {act' : ι → Act T α}
    {R : Logged S → Logged T → Prop}
    (h : ∀ i s t, R s t → (act i).result s = (act' i).result t
      ∧ R ((act i).after s) ((act' i).after t)) (is : List ι) :
    ∀ {s : Logged S} {t : Logged T}, R s t → results act s is = results act' t is := by
  induction is with
  | nil => intro s t _; rfl
  | cons i rest ih =>
    intro s t hst
    obtain ⟨hresult, hnext⟩ := h i s t hst
    unfold results
    rw [hresult, ih hnext]

/-! ## Sequencing -/

theorem bind_run (x : Act S α) (k : α → Act S β) (s : Logged S) :
    (x >>= k) s = match x s with
      | .ok a t => k a t
      | .error f t => .error f t := by
  show EStateM.bind x k s = _
  unfold EStateM.bind
  cases x s with
  | ok a t => rfl
  | error f t => rfl

theorem bind_of_ok {x : Act S α} {k : α → Act S β} {s t : Logged S} {a : α}
    (h : x s = .ok a t) : (x >>= k) s = k a t := by
  rw [bind_run, h]

theorem bind_of_error {x : Act S α} {k : α → Act S β} {s t : Logged S} {f : Fault}
    (h : x s = .error f t) : (x >>= k) s = .error f t := by
  rw [bind_run, h]

theorem after_bind_of_ok {x : Act S α} {k : α → Act S β} {s t : Logged S} {a : α}
    (h : x s = .ok a t) : (x >>= k).after s = (k a).after t := by
  unfold after; rw [bind_of_ok h]

theorem after_bind_of_error {x : Act S α} {k : α → Act S β} {s t : Logged S} {f : Fault}
    (h : x s = .error f t) : (x >>= k).after s = t := by
  unfold after; rw [bind_of_error h]

theorem endsWell_bind_of_ok {x : Act S α} {k : α → Act S β} {s t : Logged S} {a : α}
    (h : x s = .ok a t) : (x >>= k).endsWell s = (k a).endsWell t := by
  unfold endsWell; rw [bind_of_ok h]

theorem endsWell_bind_of_error {x : Act S α} {k : α → Act S β} {s t : Logged S} {f : Fault}
    (h : x s = .error f t) : (x >>= k).endsWell s = false := by
  unfold endsWell; rw [bind_of_error h]

/-- Making something else of what an action ends with leaves the state as it is. -/
theorem after_bind_pure (x : Act S α) (g : α → β) (s : Logged S) :
    (x >>= fun a => pure (g a)).after s = x.after s := by
  unfold after
  rw [bind_run]
  cases x s <;> rfl

theorem after_discard (x : Act S α) (s : Logged S) :
    (discard x : Act S Unit).after s = x.after s := after_bind_pure x (fun _ => ()) s

@[simp] theorem state_bind (k : S → Act S β) (s : Logged S) :
    (state >>= k) s = k s.state s := rfl

@[simp] theorem update_bind (g : S → S) (k : Unit → Act S β) (s : Logged S) :
    (update g >>= k) s = k () ⟨g s.state, s.notices⟩ := rfl

@[simp] theorem pure_bind_run (a : α) (k : α → Act S β) (s : Logged S) :
    (pure a >>= k) s = k a s := rfl

/-- A sequence ends normally only by both of its parts doing so. -/
theorem bind_eq_ok {x : Act S α} {k : α → Act S β} {s u : Logged S} {b : β} :
    (x >>= k) s = .ok b u ↔ ∃ a t, x s = .ok a t ∧ k a t = .ok b u := by
  rw [bind_run]
  cases x s with
  | ok a t =>
    refine ⟨fun h => ⟨a, t, rfl, h⟩, ?_⟩
    rintro ⟨_, _, h, hk⟩
    cases h
    exact hk
  | error f t => simp

/-- A sequence fails either in its first part or, after that went well, in its second. -/
theorem bind_eq_error {x : Act S α} {k : α → Act S β} {s u : Logged S} {f : Fault} :
    (x >>= k) s = .error f u ↔
      x s = .error f u ∨ ∃ a t, x s = .ok a t ∧ k a t = .error f u := by
  rw [bind_run]
  cases x s with
  | ok a t =>
    refine ⟨fun h => .inr ⟨a, t, rfl, h⟩, ?_⟩
    rintro (h | ⟨_, _, h, hk⟩)
    · cases h
    · cases h
      exact hk
  | error g t => simp

theorem discard_eq_error {x : Act S α} {s t : Logged S} {f : Fault}
    (h : (discard x : Act S Unit) s = .error f t) : x s = .error f t := by
  rcases bind_eq_error.1 (show (x >>= fun _ => pure ()) s = .error f t from h) with h | ⟨_, _, _, h⟩
  · exact h
  · cases h

theorem ofExcept_eq_ok {e : Except Fault α} {s t : Logged S} {a : α} :
    ofExcept e s = .ok a t ↔ e = .ok a ∧ t = s := by
  cases e with
  | ok b => simp [ofExcept, eq_comm]
  | error f => simp [ofExcept, fail]

theorem ofExcept_eq_error {e : Except Fault α} {s t : Logged S} {f : Fault} :
    (ofExcept e : Act S α) s = .error f t ↔ e = .error f ∧ t = s := by
  cases e with
  | ok b => simp [ofExcept]
  | error g => simp [ofExcept, fail, eq_comm]

/-- Whoever asks for the outcome of an action goes on from the state that it left. -/
theorem outcome_bind (act : Act S α) (k : Except Fault α → Act S β) (s : Logged S) :
    (outcome act >>= k) s = match act s with
      | .ok a t => k (.ok a) t
      | .error f t => k (.error f) t := by
  rw [bind_run, outcome]
  cases act s with
  | ok a t => rfl
  | error f t => rfl

/-! ## Running alike -/

/-- Two actions that end alike on related states, and leave related states again. -/
def Matches (R : Logged S → Logged T → Prop) (act : Act S α) (act' : Act T α) : Prop :=
  ∀ s t, R s t → act.result s = act'.result t ∧ R (act.after s) (act'.after t)

variable {R : Logged S → Logged T → Prop}

theorem Matches.pure (a : α) : Matches R (Pure.pure a) (Pure.pure a) := fun _ _ h => ⟨rfl, h⟩

theorem Matches.fail (f : Fault) : Matches R (Act.fail f : Act S α) (Act.fail f) :=
  fun _ _ h => ⟨rfl, h⟩

theorem Matches.ofExcept (e : Except Fault α) : Matches R (Act.ofExcept e) (Act.ofExcept e) := by
  cases e with
  | ok a => exact fun _ _ h => ⟨rfl, h⟩
  | error f => exact fun _ _ h => ⟨rfl, h⟩

/-- What goes on from the state may depend on what is alike in related states. -/
theorem Matches.state_bind {k : S → Act S β} {k' : T → Act T β}
    (h : ∀ s t, R s t → (k s.state).result s = (k' t.state).result t
      ∧ R ((k s.state).after s) ((k' t.state).after t)) :
    Matches R (state >>= k) (state >>= k') :=
  fun s t hr => h s t hr

theorem Matches.bind {x : Act S α} {x' : Act T α} {k : α → Act S β} {k' : α → Act T β}
    (hx : Matches R x x') (hk : ∀ a, Matches R (k a) (k' a)) : Matches R (x >>= k) (x' >>= k') := by
  intro s t h
  obtain ⟨hresult, hafter⟩ := hx s t h
  unfold result after at *
  rw [bind_run, bind_run]
  cases hs : x s with
  | ok a u =>
    cases ht : x' t with
    | ok b v =>
      rw [hs, ht] at hresult hafter
      cases hresult
      exact hk a u v hafter
    | error g v => rw [hs, ht] at hresult; cases hresult
  | error f u =>
    cases ht : x' t with
    | ok b v => rw [hs, ht] at hresult; cases hresult
    | error g v =>
      rw [hs, ht] at hresult hafter
      cases hresult
      exact ⟨rfl, hafter⟩

theorem Matches.update {f : S → S} {g : T → T}
    (h : ∀ s t, R s t → R ⟨f s.state, s.notices⟩ ⟨g t.state, t.notices⟩) :
    Matches R (Act.update f) (Act.update g) :=
  fun s t hr => ⟨rfl, h s t hr⟩

/-- Actions that end alike have one outcome. -/
theorem Matches.outcome {act : Act S α} {act' : Act T α} (h : Matches R act act') :
    Matches R (Act.outcome act) (Act.outcome act') := by
  intro s t hr
  obtain ⟨hresult, hafter⟩ := h s t hr
  have hrun : ∀ {U : Type} (act : Act U α) (u : Logged U),
      Act.outcome act u = .ok (act.result u) (act.after u) := by
    intro U act u
    unfold Act.outcome result after
    cases act u <;> rfl
  rw [result_of_ok (hrun act s), result_of_ok (hrun act' t), after_of_ok (hrun act s),
    after_of_ok (hrun act' t), hresult]
  exact ⟨rfl, hafter⟩

/-- Acting on parts ends alike if the parts do, and if what becomes of the wholes is related. -/
theorem Matches.within {U V : Type} {part : S → U} {put : U → S → S} {part' : T → V}
    {put' : V → T → T} {act : Act U α} {act' : Act V α}
    (h : ∀ s t, R s t →
      act.result ⟨part s.state, s.notices⟩ = act'.result ⟨part' t.state, t.notices⟩
      ∧ R ⟨put (act.after ⟨part s.state, s.notices⟩).state s.state,
          (act.after ⟨part s.state, s.notices⟩).notices⟩
        ⟨put' (act'.after ⟨part' t.state, t.notices⟩).state t.state,
          (act'.after ⟨part' t.state, t.notices⟩).notices⟩) :
    Matches R (Act.within part put act) (Act.within part' put' act') := by
  intro s t hr
  rw [result_within, result_within, run_within, run_within]
  exact h s t hr

/-! ## Properties that survive -/

/-- However the action ends, a property that held of the state before holds of the one after. -/
def Keeps (P : S → Prop) (act : Act S α) : Prop :=
  ∀ s : Logged S, P s.state → P (act.after s).state

variable {P : S → Prop}

theorem Keeps.bind {x : Act S α} {k : α → Act S β} (hx : Keeps P x) (hk : ∀ a, Keeps P (k a)) :
    Keeps P (x >>= k) := by
  intro s hs
  have h := hx s hs
  unfold after at h ⊢
  rw [bind_run]
  cases hr : x s with
  | ok a t => rw [hr] at h; exact hk a t h
  | error f t => rw [hr] at h; exact h

theorem Keeps.pure (a : α) : Keeps P (pure a : Act S α) := fun _ hs => hs

theorem Keeps.fail (f : Fault) : Keeps P (Act.fail f : Act S α) := fun _ hs => hs

theorem Keeps.state : Keeps P (Act.state : Act S S) := fun _ hs => hs

theorem Keeps.note (n : Notice) : Keeps P (Act.note n : Act S Unit) := fun _ hs => hs

theorem Keeps.ofExcept (e : Except Fault α) : Keeps P (Act.ofExcept e : Act S α) := by
  intro s hs
  cases e with
  | ok a => exact hs
  | error f => exact hs

theorem Keeps.update {f : S → S} (h : ∀ s, P s → P (f s)) : Keeps P (Act.update f) :=
  fun s hs => h s.state hs

theorem Keeps.outcome {act : Act S α} (h : Keeps P act) : Keeps P (Act.outcome act) := by
  intro s hs
  have h := h s hs
  unfold after at h ⊢
  unfold Act.outcome
  cases hr : act s with
  | ok a t => rw [hr] at h; exact h
  | error f t => rw [hr] at h; exact h

theorem Keeps.onFault {act : Act S α} {more : Fault → Act S Unit} (h : Keeps P act)
    (hm : ∀ f, Keeps P (more f)) : Keeps P (Act.onFault act more) := by
  intro s hs
  have h := h s hs
  unfold after at h ⊢
  unfold Act.onFault
  cases hr : act s with
  | ok a t => rw [hr] at h; exact h
  | error f t =>
    rw [hr] at h
    have h := hm f t h
    unfold after at h
    dsimp only
    cases hr : more f t with
    | ok a u => rw [hr] at h; exact h
    | error g u => rw [hr] at h; exact h

/-- Acting on a part keeps what holds of every whole that the part can be put back into. -/
theorem Keeps.within {part : S → T} {put : T → S → S} {act : Act T α}
    (h : ∀ s ns, P s → P (put (act.after ⟨part s, ns⟩).state s)) :
    Keeps P (Act.within part put act) := by
  intro s hs
  rw [after_within]
  exact h s.state s.notices hs

/-- What is done apart is not done to the state. -/
theorem Keeps.apart (start : T) (act : Act T α) : Keeps P (Act.apart start act) := by
  intro s hs
  unfold after Act.apart
  cases act ⟨start, s.notices⟩ with
  | ok a t => exact hs
  | error f t => exact hs

/-! ## Faults -/

/-- Whichever fault the action ends with has the property. -/
def FailsWith (P : Fault → Prop) (act : Act S α) : Prop := ∀ s t f, act s = .error f t → P f

variable {P : Fault → Prop}

theorem FailsWith.bind {x : Act S α} {k : α → Act S β} (hx : FailsWith P x)
    (hk : ∀ a, FailsWith P (k a)) : FailsWith P (x >>= k) := by
  intro s t f h
  rcases bind_eq_error.1 h with h | ⟨a, u, _, h⟩
  · exact hx s t f h
  · exact hk a u t f h

theorem FailsWith.pure (a : α) : FailsWith P (pure a : Act S α) := by
  intro s t f h
  cases h

theorem FailsWith.fail {f : Fault} (hf : P f) : FailsWith P (Act.fail f : Act S α) := by
  intro s t g h
  cases h
  exact hf

theorem FailsWith.state : FailsWith P (Act.state : Act S S) := by
  intro s t f h
  cases h

theorem FailsWith.update (g : S → S) : FailsWith P (Act.update g) := by
  intro s t f h
  cases h

theorem FailsWith.note (n : Notice) : FailsWith P (Act.note n : Act S Unit) := by
  intro s t f h
  cases h

theorem FailsWith.ofExcept {e : Except Fault α} (he : ∀ f, e = .error f → P f) :
    FailsWith P (Act.ofExcept e : Act S α) := fun _ _ f h => he f (ofExcept_eq_error.1 h).1

theorem FailsWith.onFault {act : Act S α} {more : Fault → Act S Unit} (h : FailsWith P act)
    (hm : ∀ f, FailsWith P (more f)) : FailsWith P (Act.onFault act more) := by
  intro s t g hg
  unfold Act.onFault at hg
  cases hs : act s with
  | ok a u => rw [hs] at hg; cases hg
  | error f u =>
    rw [hs] at hg
    dsimp only at hg
    cases hr : more f u with
    | ok a v => rw [hr] at hg; cases hg; exact h s u g hs
    | error f' v => rw [hr] at hg; cases hg; exact hm f u t g hr

theorem FailsWith.within {part : S → T} {put : T → S → S} {act : Act T α} (h : FailsWith P act) :
    FailsWith P (Act.within part put act) := by
  intro s t f hf
  unfold Act.within at hf
  cases hs : act ⟨part s.state, s.notices⟩ with
  | ok a u => rw [hs] at hf; cases hf
  | error g u => rw [hs] at hf; cases hf; exact h _ u f hs

end Changefeed.Act

/-! ## Without a state -/

namespace Changefeed.Fallible

/-- A sequence gives a value only by both of its parts doing so. -/
theorem bind_eq_ok {ε α β : Type} {x : Except ε α} {k : α → Except ε β} {b : β}
    (h : (x >>= k) = .ok b) : ∃ a, x = .ok a ∧ k a = .ok b := by
  cases x with
  | error f => cases h
  | ok a => exact ⟨a, rfl, h⟩

/-- A sequence fails either in its first part or, after that went well, in its second. -/
theorem bind_eq_error {ε α β : Type} {x : Except ε α} {k : α → Except ε β} {f : ε}
    (h : (x >>= k) = .error f) : x = .error f ∨ ∃ a, x = .ok a ∧ k a = .error f := by
  cases x with
  | error g =>
    cases h
    exact .inl rfl
  | ok a => exact .inr ⟨a, rfl, h⟩

end Changefeed.Fallible
