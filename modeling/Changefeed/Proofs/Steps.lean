import Changefeed.Proofs.Action

/-!
# Actions step by step

An action as a whole says nothing of the states it passes through, yet whoever
pulls the plug finds one of these. `Steps` is an action together with them: it is
put together from single steps (`Steps.one`) as the action is from its parts, so
that its action is the given one, and its states are those between the steps.
A step itself is never found half done.
-/

namespace Changefeed

/-- An action, and the states that it passes through from a state on. -/
structure Steps (S α : Type) where
  act : Act S α
  passes : Logged S → Logged S → Prop
  /-- It passes through the state that it begins with, -/
  first : ∀ s, passes s s
  /-- and through the one that it leaves. -/
  last : ∀ s, passes s (act.after s)

namespace Steps

variable {S T α β : Type}

/-- An action that is one step. -/
def one (act : Act S α) : Steps S α where
  act
  passes s t := t = s ∨ t = act.after s
  first _ := .inl rfl
  last _ := .inr rfl

/-- Some steps, and then others. -/
def bind (x : Steps S α) (k : α → Steps S β) : Steps S β where
  act := x.act >>= fun a => (k a).act
  passes s t := x.passes s t ∨ ∃ a u, x.act s = .ok a u ∧ (k a).passes u t
  first s := .inl (x.first s)
  last s := by
    cases hx : x.act s with
    | ok a u =>
      rw [Act.after_bind_of_ok hx]
      exact .inr ⟨a, u, rfl, (k a).last u⟩
    | error f u =>
      rw [Act.after_bind_of_error hx, ← Act.after_of_error hx]
      exact .inl (x.last s)

instance : Monad (Steps S) where
  pure a := ⟨pure a, fun s t => t = s, fun _ => rfl, fun _ => rfl⟩
  bind := bind

/-- Some steps, and more after a fault. -/
def onFault (x : Steps S α) (more : Fault → Steps S Unit) : Steps S α where
  act := x.act.onFault fun f => (more f).act
  passes s t := x.passes s t ∨ ∃ f u, x.act s = .error f u ∧ (more f).passes u t
  first s := .inl (x.first s)
  last s := by
    unfold Act.after Act.onFault
    have hx := x.last s
    unfold Act.after at hx
    cases hs : x.act s with
    | ok a u =>
      rw [hs] at hx
      exact .inl hx
    | error f u =>
      have hm := (more f).last u
      unfold Act.after at hm
      refine .inr ⟨f, u, rfl, ?_⟩
      dsimp only
      cases hr : (more f).act u <;> rw [hr] at hm <;> exact hm

/-- Steps on a part of the state. -/
def within (part : S → T) (put : T → S → S) (x : Steps T α) : Steps S α where
  act := x.act.within part put
  passes s t := t = s ∨ ∃ u, x.passes ⟨part s.state, s.notices⟩ u ∧ t = ⟨put u.state s.state, u.notices⟩
  first s := .inl rfl
  last s := by
    refine .inr ⟨_, x.last _, ?_⟩
    unfold Act.after Act.within
    cases x.act ⟨part s.state, s.notices⟩ <;> rfl

/-! ## Which states are passed through -/

/-- A property that held of the state before holds of every state that is passed through. -/
def Keeps (P : S → Prop) (x : Steps S α) : Prop :=
  ∀ s t : Logged S, P s.state → x.passes s t → P t.state

variable {P : S → Prop}

theorem Keeps.act {x : Steps S α} (h : Keeps P x) : Act.Keeps P x.act := fun s hs =>
  h s _ hs (x.last s)

theorem Keeps.one {act : Act S α} (h : Act.Keeps P act) : Keeps P (one act) := by
  rintro s t hs (rfl | rfl)
  · exact hs
  · exact h s hs

theorem Keeps.bind {x : Steps S α} {k : α → Steps S β} (hx : Keeps P x) (hk : ∀ a, Keeps P (k a)) :
    Keeps P (x >>= k) := by
  rintro s t hs (h | ⟨a, u, hu, h⟩)
  · exact hx s t hs h
  · have hP := hx.act s hs
    rw [Act.after_of_ok hu] at hP
    exact hk a u t hP h

end Steps

end Changefeed
