import Changefeed.Disk.Basic
import Changefeed.Proofs.Action

/-!
# Ways on a disk

Where a path leads does not depend on the disk: it is the target of the path
(`Path.target`), if the path can be followed at all. What does depend on the disk
is whether everything on the way is a directory. So a change to a disk that keeps
its directories keeps the ways (`locate_of_keeps`), and once the directory that a
path is in has been made sure of, the path leads somewhere (`locate_of_parent`)
and making sure again does nothing (`ensureDirectory_of_has`).
-/

namespace Changefeed

/-- Where a path leads, if its way is there. -/
def Path.target (p : Path) : Location := p.names.foldl Location.enter p.start

namespace Disk

variable {d d' : Disk} {p : Path} {l l' : Location}

/-! ## What is at a location -/

theorem node?_of_not_fixed (h : l.isFixed = false) : d.node? l = d.nodes.get? l := by
  unfold node?
  rw [if_neg (by simp [h])]

/-- Every place that is there on every disk is a directory. -/
theorem not_fixed_of_not_directory (h : d.node? l ≠ some .directory) : l.isFixed = false := by
  cases hf : l.isFixed with
  | false => rfl
  | true =>
    refine absurd ?_ h
    unfold node?
    rw [if_pos hf]

theorem not_fixed_of_none (h : d.node? l = none) : l.isFixed = false :=
  not_fixed_of_not_directory (d := d) (by simp [h])

theorem node?_put (n : Node) (h : l.isFixed = false) :
    (d.put l n).node? l' = if l = l' then some n else d.node? l' := by
  unfold node?
  by_cases hf : l'.isFixed = true
  · rw [if_pos hf, if_pos hf, if_neg]
    rintro rfl
    rw [h] at hf
    cases hf
  · rw [if_neg hf, if_neg hf]
    exact Keyed.get?_insert ..

/-! ## Following a path -/

theorem locate_of_null (h : p.hasNull = true) : d.locate p = .error (.argument .nullInPath) := by
  unfold locate
  rw [if_pos h]

theorem step_eq_ok {name : String} :
    d.step l name = .ok l' ↔
      d.node? l = some .directory ∧ name.utf8ByteSize ≤ longestName ∧ l.enter name = l' := by
  unfold step
  cases d.node? l with
  | none => simp
  | some n =>
    cases n with
    | file c => simp
    | directory =>
      dsimp only
      by_cases h : longestName < name.utf8ByteSize
      · simp [h, Nat.not_le.2 h]
      · simp [h, Nat.not_lt.1 h]

/-- What stands on the way of a path that can be followed. -/
theorem locate_eq_ok :
    d.locate p = .ok l ↔
      p.hasNull = false ∧ p.text.utf8ByteSize ≤ longestPath ∧ p.names.foldlM d.step p.start = .ok l := by
  unfold locate
  cases p.hasNull with
  | true => simp
  | false =>
    rw [if_neg (by simp)]
    by_cases h : longestPath < p.text.utf8ByteSize
    · simp [h, Nat.not_le.2 h]
    · simp [h, Nat.not_lt.1 h]

theorem foldlM_step_eq {names : List String} (h : names.foldlM d.step l = .ok l') :
    l' = names.foldl Location.enter l := by
  induction names generalizing l with
  | nil => cases h; rfl
  | cons name names ih =>
    rw [List.foldlM_cons] at h
    cases hs : d.step l name with
    | error f => rw [hs] at h; cases h
    | ok k =>
      rw [hs] at h
      rw [ih h, ← (step_eq_ok.1 hs).2.2]
      rfl

/-- A path leads to its target or nowhere. -/
theorem eq_target (h : d.locate p = .ok l) : l = p.target :=
  foldlM_step_eq (locate_eq_ok.1 h).2.2

/-! ## Changes that keep the ways -/

/-- Every directory of the one disk is one of the other. -/
def KeepsDirectories (d d' : Disk) : Prop :=
  ∀ l, d.node? l = some .directory → d'.node? l = some .directory

/-- A file is put where no directory is. -/
theorem keepsDirectories_put (hf : l.isFixed = false) (h : d.node? l ≠ some .directory) (n : Node) :
    KeepsDirectories d (d.put l n) := by
  intro k hk
  rw [node?_put n hf, if_neg]
  · exact hk
  · rintro rfl
    exact h hk

theorem foldlM_step_of_keeps (h : KeepsDirectories d d') {names : List String}
    (hl : names.foldlM d.step l = .ok l') : names.foldlM d'.step l = .ok l' := by
  induction names generalizing l with
  | nil => exact hl
  | cons name names ih =>
    rw [List.foldlM_cons] at hl ⊢
    cases hs : d.step l name with
    | error f => rw [hs] at hl; cases hl
    | ok k =>
      rw [hs] at hl
      have hstep := step_eq_ok.1 hs
      rw [step_eq_ok.2 ⟨h l hstep.1, hstep.2⟩]
      exact ih hl

/-- **A path that leads somewhere leads there still** when the directories are kept. -/
theorem locate_of_keeps (h : KeepsDirectories d d') (hl : d.locate p = .ok l) :
    d'.locate p = .ok l := by
  obtain ⟨hn, hs, hf⟩ := locate_eq_ok.1 hl
  exact locate_eq_ok.2 ⟨hn, hs, foldlM_step_of_keeps h hf⟩

/-! ## The directory that a path is in -/

/-- A path leads to a directory. -/
def HasDirectory (d : Disk) (p : Path) : Prop :=
  d.locate p = .ok p.target ∧ d.node? p.target = some .directory

theorem HasDirectory.of_keeps (h : KeepsDirectories d d') (hd : d.HasDirectory p) :
    d'.HasDirectory p :=
  ⟨locate_of_keeps h hd.1, h _ hd.2⟩

theorem find?_eq_directory : d.find? p = .ok (some .directory) ↔ d.HasDirectory p := by
  unfold find? HasDirectory
  cases hl : d.locate p with
  | ok l => simp [eq_target hl]
  | error f =>
    refine ⟨fun h => ?_, fun h => nomatch h.1⟩
    split at h <;> simp_all

theorem parent_of_names (h : p.names ≠ []) :
    p.names = p.parent.names ++ [p.name] ∧ p.target = p.parent.target.enter p.name := by
  have hnames : p.names = p.parent.names ++ [p.name] := by
    unfold Path.name
    rw [List.getLastD_eq_getLast?, List.getLast?_eq_some_getLast h]
    exact (List.dropLast_concat_getLast h).symm
  refine ⟨hnames, ?_⟩
  unfold Path.target
  rw [hnames, List.foldl_append]
  rfl

/-- In a directory, a path leads to its target, or is no path that a disk could know. -/
theorem locate_of_parent (h : d.HasDirectory p.parent) :
    d.locate p = .ok p.target ∨ d.locate p = .error (.system .failed)
      ∨ p.hasNull = true ∧ d.locate p = .error (.argument .nullInPath) := by
  -- a path without names is its own parent, which is a directory
  by_cases hnames : p.names = []
  · have hp : p.parent = p := by
      obtain ⟨anchor, names⟩ := p
      cases hnames
      rfl
    exact .inl (hp ▸ h.1)
  obtain ⟨hlist, htarget⟩ := parent_of_names hnames
  cases hnull : p.hasNull with
  | true =>
    refine .inr (.inr ⟨rfl, ?_⟩)
    unfold locate
    rw [if_pos hnull]
  | false =>
    by_cases hlong : longestPath < p.text.utf8ByteSize
    · refine .inr (.inl ?_)
      unfold locate
      rw [if_neg (by simp [hnull]), if_pos hlong]
    · have hfold := (locate_eq_ok.1 h.1).2.2
      -- the way to the parent is there, so only the last name is left to follow
      have hrun : d.locate p = d.step p.parent.target p.name := by
        unfold locate
        rw [if_neg (by simp [hnull]), if_neg hlong, hlist, List.foldlM_append]
        show (p.parent.names.foldlM d.step p.parent.start).bind _ = _
        rw [hfold]
        show ([p.name].foldlM d.step p.parent.target) = _
        rw [List.foldlM_cons]
        cases d.step p.parent.target p.name <;> rfl
      rw [hrun]
      by_cases hname : longestName < p.name.utf8ByteSize
      · refine .inr (.inl ?_)
        unfold step
        rw [h.2]
        dsimp only
        rw [if_pos hname]
      · exact .inl (step_eq_ok.2 ⟨h.2, Nat.not_lt.1 hname, htarget.symm⟩)

/-- A shorter path has a shorter text, or is the working directory. -/
theorem size_intercalate_dropLast (names : List String) :
    ("/".intercalate names.dropLast).utf8ByteSize ≤ ("/".intercalate names).utf8ByteSize := by
  by_cases hn : names = []
  · rw [hn]
    exact Nat.le_refl _
  by_cases hd : names.dropLast = []
  · rw [hd, String.intercalate_nil]
    exact Nat.zero_le _
  have h := String.intercalate_append_of_ne_nil (s := "/") hd (List.cons_ne_nil (names.getLast hn) [])
  rw [List.dropLast_concat_getLast] at h
  rw [h, String.utf8ByteSize_append, String.utf8ByteSize_append]
  omega

theorem size_text_parent (p : Path) (h : p.text.utf8ByteSize ≤ longestPath) :
    p.parent.text.utf8ByteSize ≤ longestPath := by
  unfold Path.text at h ⊢
  split
  · decide
  · rename_i hp
    rw [if_neg, String.utf8ByteSize_append] at h
    · have := size_intercalate_dropLast p.names
      rw [String.utf8ByteSize_append]
      show p.anchor.text.utf8ByteSize + ("/".intercalate p.names.dropLast).utf8ByteSize ≤ _
      omega
    · rintro ⟨ha, hn⟩
      refine hp ⟨ha, ?_⟩
      show p.names.dropLast = []
      rw [hn]
      rfl

/-- What a path leads to, if it is no directory, is in one. -/
theorem hasDirectory_parent (hl : d.locate p = .ok p.target) (hd : d.node? p.target ≠ some .directory) :
    d.HasDirectory p.parent := by
  obtain ⟨hnull, hlong, hfold⟩ := locate_eq_ok.1 hl
  -- a path without names leads to a fixed place, and that is a directory
  have hnames : p.names ≠ [] := by
    intro hn
    refine hd ?_
    unfold Path.target node?
    rw [hn, if_pos (by rfl)]
  obtain ⟨hlist, _⟩ := parent_of_names hnames
  rw [hlist, List.foldlM_append] at hfold
  cases hs : p.parent.names.foldlM d.step p.parent.start with
  | error f =>
    rw [show p.start = p.parent.start from rfl, hs] at hfold
    cases hfold
  | ok k =>
    rw [show p.start = p.parent.start from rfl, hs] at hfold
    have hk : k = p.parent.target := foldlM_step_eq hs
    -- the last name could be entered, so it was entered from a directory
    have hnode : d.node? k = some .directory := by
      change [p.name].foldlM d.step k = _ at hfold
      rw [List.foldlM_cons] at hfold
      cases hstep : d.step k p.name with
      | error f => rw [hstep] at hfold; cases hfold
      | ok k' => exact (step_eq_ok.1 hstep).1
    have hnull' : p.parent.hasNull = false := by
      unfold Path.hasNull at hnull ⊢
      rw [hlist, List.any_append, Bool.or_eq_false_iff] at hnull
      exact hnull.1
    exact ⟨locate_eq_ok.2 ⟨hnull', size_text_parent p hlong, hk ▸ hs⟩, hk ▸ hnode⟩

/-! ## Making sure of a directory -/

theorem makeDirectory_run (p : Path) (s : Logged Disk) :
    makeDirectory p s = match s.state.locate p with
      | .error f => .error f s
      | .ok l => match s.state.node? l with
        | some _ => .error (.system .exists) s
        | none => .ok () ⟨s.state.put l .directory, s.notices⟩ := by
  have hrun : makeDirectory p s = (Act.ofExcept (s.state.locate p) >>= fun l => do
      match (← Act.state).node? l with
      | some _ => .fail (.system .exists)
      | none => .update (·.put l .directory)) s := rfl
  rw [hrun]
  cases s.state.locate p with
  | error f => rfl
  | ok l =>
    show (match s.state.node? l with
      | some _ => Act.fail (.system .exists)
      | none => Act.update (·.put l .directory) : Act Disk Unit) s = _
    dsimp only
    cases s.state.node? l <;> rfl

/-- A directory is made where nothing is, or nothing is done. -/
theorem makeDirectory_cases (p : Path) (s : Logged Disk) :
    (∃ f, makeDirectory p s = .error f s)
      ∨ (s.state.locate p = .ok p.target ∧ s.state.node? p.target = none
        ∧ makeDirectory p s = .ok () ⟨s.state.put p.target .directory, s.notices⟩) := by
  rw [makeDirectory_run]
  cases hl : s.state.locate p with
  | error f => exact .inl ⟨f, rfl⟩
  | ok l =>
    obtain rfl := eq_target hl
    dsimp only
    cases hn : s.state.node? p.target with
    | some n => exact .inl ⟨.system .exists, rfl⟩
    | none => exact .inr ⟨rfl, rfl, rfl⟩

/-- A directory that was made is there, and so are all that were there before. -/
theorem hasDirectory_put (hl : d.locate p = .ok p.target) (hn : d.node? p.target = none) :
    KeepsDirectories d (d.put p.target .directory) ∧ (d.put p.target .directory).HasDirectory p := by
  have hf := not_fixed_of_none hn
  have hne : d.node? p.target ≠ some .directory := by simp [hn]
  have hk := keepsDirectories_put hf hne .directory
  exact ⟨hk, locate_of_keeps hk hl, by rw [node?_put _ hf, if_pos rfl]⟩

theorem keepDirectory_run (p : Path) (s : Logged Disk) :
    keepDirectory p s = match makeDirectory p s with
      | .ok () t => .ok () t
      | .error (.system cause) t =>
        match t.state.find? p with
        | .ok (some .directory) => .ok () t
        | _ => .error (.system cause) t
      | .error f t => .error f t := by
  unfold keepDirectory
  rw [Act.bind_run]
  unfold Act.outcome
  cases makeDirectory p s with
  | ok a t => rfl
  | error f t =>
    cases f with
    | system cause =>
      show (match t.state.find? p with
        | .ok (some .directory) => pure ()
        | _ => Act.fail (.system cause) : Act Disk Unit) t = _
      dsimp only
      cases t.state.find? p with
      | error g => rfl
      | ok found =>
        rcases found with _ | ⟨⟨⟩⟩ | c <;> rfl
    | _ => rfl

/-- Keeping a directory that is there does nothing. -/
theorem keepDirectory_of_has {s : Logged Disk} (h : s.state.HasDirectory p) :
    keepDirectory p s = .ok () s := by
  have hmake : makeDirectory p s = .error (.system .exists) s := by
    rw [makeDirectory_run, h.1]
    dsimp only
    rw [h.2]
  rw [keepDirectory_run, hmake]
  dsimp only
  rw [find?_eq_directory.2 h]

theorem keepDirectory_ok {s t : Logged Disk} (h : keepDirectory p s = .ok () t) :
    t.state.HasDirectory p := by
  rw [keepDirectory_run] at h
  rcases makeDirectory_cases p s with ⟨f, hm⟩ | ⟨hl, hn, hm⟩
  · rw [hm] at h
    cases f with
    | system cause =>
      dsimp only at h
      split at h
      · rename_i hfind
        cases h
        exact find?_eq_directory.1 hfind
      · cases h
    | _ => cases h
  · rw [hm] at h
    cases h
    exact (hasDirectory_put hl hn).2

theorem lacksWay_of_has (h : d.HasDirectory p) : d.lacksWay p = false := by
  unfold lacksWay
  rw [h.1]

theorem ensureUpTo_of_has {n : Nat} {s : Logged Disk} (h : s.state.HasDirectory (p.upTo n)) :
    ensureUpTo p n s = .ok () s := by
  cases n with
  | zero => exact keepDirectory_of_has h
  | succ n =>
    show (if s.state.lacksWay (p.upTo (n + 1)) = true then
      ensureUpTo p n >>= fun _ => keepDirectory (p.upTo (n + 1))
      else keepDirectory (p.upTo (n + 1)) : Act Disk Unit) s = _
    rw [lacksWay_of_has h, if_neg (by simp)]
    exact keepDirectory_of_has h

theorem ensureUpTo_ok {n : Nat} {s t : Logged Disk} (h : ensureUpTo p n s = .ok () t) :
    t.state.HasDirectory (p.upTo n) := by
  cases n with
  | zero => exact keepDirectory_ok h
  | succ n =>
    change (if s.state.lacksWay (p.upTo (n + 1)) = true then
      ensureUpTo p n >>= fun _ => keepDirectory (p.upTo (n + 1))
      else keepDirectory (p.upTo (n + 1)) : Act Disk Unit) s = _ at h
    split at h
    · obtain ⟨_, _, _, h⟩ := Act.bind_eq_ok.1 h
      exact keepDirectory_ok h
    · exact keepDirectory_ok h

theorem upTo_length (p : Path) : p.upTo p.names.length = p := by
  unfold Path.upTo
  rw [List.take_length]

/-- **Once it is made sure of, a directory is there**, -/
theorem ensureDirectory_ok {s t : Logged Disk} (h : ensureDirectory p s = .ok () t) :
    t.state.HasDirectory p := by
  have := ensureUpTo_ok h
  rwa [upTo_length] at this

/-- and making sure of one that is there does nothing. -/
theorem ensureDirectory_of_has {s : Logged Disk} (h : s.state.HasDirectory p) :
    ensureDirectory p s = .ok () s := by
  refine ensureUpTo_of_has ?_
  rwa [upTo_length]

end Disk

end Changefeed
