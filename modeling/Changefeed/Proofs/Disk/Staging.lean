import Changefeed.Proofs.Disk.Ways
import Changefeed.Proofs.Keyed

/-!
# The calls that replace a file

A file is staged where nothing was (`stage_run`), and it replaces another one when
it is renamed (`Staged.rename_run`). Each of the calls fails because it was planned
to, or because of what is on the disk, so that it can be read off the disk
beforehand whether it will (`refusesStage`, `refusesRename`).
-/

namespace Changefeed.Disk

variable {d d' : Disk} {p : Path} {l : Location} {text : String} {s : Logged Disk}

/-! ## The staged file -/

theorem le_foldl_max {a : Nat} {ns : List Nat} (h : a ∈ ns) (m : Nat) : a ≤ ns.foldl max m := by
  have hmono : ∀ (ns : List Nat) m, m ≤ ns.foldl max m := by
    intro ns
    induction ns with
    | nil => exact fun m => Nat.le_refl m
    | cons b ns ih => exact fun m => Nat.le_trans (Nat.le_max_left m b) (ih _)
  induction ns generalizing m with
  | nil => cases h
  | cons b ns ih =>
    rcases List.mem_cons.1 h with rfl | h
    · exact Nat.le_trans (Nat.le_max_right m a) (hmono ns _)
    · exact ih h _

/-- Nothing is where a staged file is put: its name is longer than any on the disk. -/
theorem node?_free (d : Disk) (l : Location) : d.node? (d.free l) = none := by
  generalize hsize : ((d.nodes.keys.flatMap Location.names).map String.length).foldl max 0 = size
  have hnames : (d.free l).names =
      l.names.dropLast ++ [String.ofList (List.replicate (size + 1) '_')] := by
    rw [← hsize]
    rfl
  have hfixed : (d.free l).isFixed = false := by
    unfold Location.isFixed
    rw [hnames, List.all_append, Bool.and_eq_false_iff]
    right
    simp only [List.all_cons, List.all_nil, Bool.and_true, decide_eq_false_iff_not]
    intro h
    have := congrArg String.toList h
    rw [String.toList_ofList, List.replicate_succ] at this
    cases this
  rw [node?_of_not_fixed hfixed, Keyed.get?_eq_none_iff]
  intro hmem
  have hlong : size + 1 ∈ (d.nodes.keys.flatMap Location.names).map String.length := by
    refine List.mem_map.2 ⟨String.ofList (List.replicate (size + 1) '_'), ?_, by simp⟩
    exact List.mem_flatMap.2 ⟨_, hmem, by rw [hnames]; simp⟩
  have := le_foldl_max hlong 0
  omega

/-! ## Staging and forcing to the medium -/

/-- Whether no file can be staged beside a path. -/
def refusesStage (d : Disk) (p : Path) : Bool :=
  d.plan.stage.headD false || !(d.locate (stagedPath p)).isOk

/-- Whether a directory is at a location. -/
def isDirectory (d : Disk) (l : Location) : Bool :=
  match d.node? l with
  | some .directory => true
  | _ => false

/-- Whether no file can be renamed to a path. -/
def refusesRename (d : Disk) (p : Path) : Bool :=
  d.plan.rename.headD false || !(d.locate p).isOk || d.isDirectory p.target

theorem isDirectory_iff : d.isDirectory l = true ↔ d.node? l = some .directory := by
  unfold isDirectory
  rcases d.node? l with _ | _ | c <;> simp

/-- A disk with a staged file on it and otherwise as before. -/
def Staged (d : Disk) (l : Location) (text : String) (d' : Disk) : Prop :=
  d.node? l = none ∧ d'.nodes = d.nodes.insert l (.file (.text text))

/-- A disk with the file at a path replaced and otherwise as before. -/
def Replaced (d : Disk) (p : Path) (text : String) (d' : Disk) : Prop :=
  d.locate p = .ok p.target ∧ d.node? p.target ≠ some .directory
    ∧ d'.nodes = d.nodes.insert p.target (.file (.text text))

theorem planned_run (plan : List Bool) (s : Logged Disk) :
    planned plan s = if plan.headD false = true then .error (.system .failed) s else .ok () s := by
  rcases plan with _ | ⟨_ | _, rest⟩ <;> rfl

theorem stage_run (p : Path) (text : String) (s : Logged Disk) :
    (s.state.refusesStage p = true
        ∧ ∃ f t, stage p text s = .error f t ∧ t.state.nodes = s.state.nodes)
      ∨ (s.state.refusesStage p = false ∧ ∃ l t, stage p text s = .ok l t
        ∧ Staged s.state l text t.state ∧ t.state.plan.sync = s.state.plan.sync
        ∧ t.state.plan.rename = s.state.plan.rename) := by
  generalize hu : (⟨{ s.state with plan := { s.state.plan with stage := s.state.plan.stage.tail } },
    s.notices⟩ : Logged Disk) = u
  have hrun : stage p text s = (planned s.state.plan.stage >>= fun _ =>
      Act.ofExcept (s.state.locate (stagedPath p)) >>= fun l =>
      Act.update (·.put (s.state.free l) (.file (.text text))) >>= fun _ =>
      pure (s.state.free l)) u := by
    rw [← hu]
    rfl
  have hsame : u.state.nodes = s.state.nodes := by rw [← hu]
  have hplan : u.state.plan = { s.state.plan with stage := s.state.plan.stage.tail } := by rw [← hu]
  rw [Act.bind_run, planned_run] at hrun
  unfold refusesStage
  cases hplanned : s.state.plan.stage.headD false with
  | true =>
    rw [hplanned, if_pos rfl] at hrun
    exact .inl ⟨rfl, _, u, hrun, hsame⟩
  | false =>
    rw [hplanned, if_neg (by simp)] at hrun
    cases hl : s.state.locate (stagedPath p) with
    | error f =>
      rw [hl] at hrun
      exact .inl ⟨rfl, f, u, hrun, hsame⟩
    | ok l =>
      rw [hl] at hrun
      refine .inr ⟨rfl, s.state.free l, _, hrun, ⟨node?_free .., ?_⟩, ?_, ?_⟩
      · show u.state.nodes.insert _ _ = _
        rw [hsame]
      · show u.state.plan.sync = _
        rw [hplan]
      · show u.state.plan.rename = _
        rw [hplan]

/-- A disk after one more call to force something to the medium. -/
def synced (d : Disk) : Disk :=
  { d with plan := { d.plan with sync := d.plan.sync.tail }, syncs := d.syncs + 1 }

theorem sync_run (s : Logged Disk) :
    sync s = if s.state.plan.sync.headD false = true
      then .error (.system .failed) ⟨s.state.synced, s.notices⟩
      else .ok () ⟨s.state.synced, s.notices⟩ := by
  unfold sync
  rw [Act.state_bind, Act.update_bind, planned_run]
  rfl

/-! ## With a staged file on the disk -/

theorem node?_congr (h : d'.nodes = d.nodes) (l : Location) : d'.node? l = d.node? l := by
  unfold node?
  rw [h]

theorem locate_congr (h : d'.nodes = d.nodes) (p : Path) : d'.locate p = d.locate p := by
  have hstep : d'.step = d.step := by
    funext l name
    unfold step
    rw [node?_congr h]
  unfold locate
  rw [hstep]

theorem content?_congr (h : d'.nodes = d.nodes) (p : Path) : d'.content? p = d.content? p := by
  unfold content?
  rw [locate_congr h]
  cases d.locate p with
  | ok l =>
    dsimp only
    rw [node?_congr h]
  | error f => rfl

theorem Staged.node? (h : Staged d l text d') (k : Location) :
    d'.node? k = if l = k then some (.file (.text text)) else d.node? k := by
  rw [← node?_put _ (not_fixed_of_none h.1)]
  exact node?_congr h.2 k

/-- Without the staged file everything is as before. -/
theorem Staged.discard (h : Staged d l text d') : (d'.remove l).nodes = d.nodes := by
  show d'.nodes.erase l = _
  rw [h.2, Keyed.erase_insert]
  rw [← node?_of_not_fixed (not_fixed_of_none h.1)]
  exact h.1

theorem Staged.keepsDirectories (h : Staged d l text d') : KeepsDirectories d d' := by
  have hput : d'.nodes = (d.put l (.file (.text text))).nodes := h.2
  intro k hk
  rw [node?_congr hput]
  exact keepsDirectories_put (not_fixed_of_none h.1) (by simp [h.1]) _ k hk

/-- The directories are those that were there without the staged file. -/
theorem Staged.keptDirectories (h : Staged d l text d') : KeepsDirectories d' d := by
  intro k hk
  rw [h.node?] at hk
  split at hk
  · cases hk
  · exact hk

/-- A staged file stands in no way. -/
theorem Staged.refusesRename (h : Staged d l text d') (hplan : d'.plan.rename = d.plan.rename)
    (p : Path) : d'.refusesRename p = d.refusesRename p := by
  have hlocate : (d'.locate p).isOk = (d.locate p).isOk := by
    cases hd : d.locate p with
    | ok k => rw [locate_of_keeps h.keepsDirectories hd]
    | error f =>
      cases hd' : d'.locate p with
      | ok k => rw [locate_of_keeps h.keptDirectories hd'] at hd; cases hd
      | error g => rfl
  have hdirectory : d'.isDirectory p.target = d.isDirectory p.target := by
    rw [Bool.eq_iff_iff, isDirectory_iff, isDirectory_iff]
    exact ⟨h.keptDirectories _, h.keepsDirectories _⟩
  unfold Disk.refusesRename
  rw [hplan, hlocate, hdirectory]

/-- What renaming comes to once it is known what the path leads to. -/
def renameTo (l k : Location) (d : Disk) : Act Disk Unit :=
  match d.node? l, d.node? k with
  | none, _ => .fail (.system .missing)
  | some _, some .directory => .fail (.system .isDirectory)
  | some n, _ => .update fun d => (d.remove l).put k n

/-- **A staged file that is renamed** replaces the other file, unless that is refused. -/
theorem Staged.rename_run (h : Staged d l text s.state) (p : Path) :
    (s.state.refusesRename p = true
        ∧ ∃ f u, Disk.rename l p s = .error f u ∧ Staged d l text u.state)
      ∨ (s.state.refusesRename p = false ∧ ∃ u, Disk.rename l p s = .ok () u
        ∧ Replaced d p text u.state ∧ u.state.plan.sync = s.state.plan.sync) := by
  generalize hu : (⟨{ s.state with
    plan := { s.state.plan with rename := s.state.plan.rename.tail } }, s.notices⟩ : Logged Disk) = u
  have hrun : Disk.rename l p s = (planned s.state.plan.rename >>= fun _ =>
      Act.ofExcept (s.state.locate p) >>= fun k => renameTo l k s.state) u := by
    rw [← hu]
    rfl
  have hstaged : Staged d l text u.state := by rw [← hu]; exact h
  have hthere : s.state.node? l = some (.file (.text text)) := by rw [h.node?, if_pos rfl]
  rw [Act.bind_run, planned_run] at hrun
  unfold Disk.refusesRename
  cases hplanned : s.state.plan.rename.headD false with
  | true =>
    rw [hplanned, if_pos rfl] at hrun
    exact .inl ⟨rfl, _, u, hrun, hstaged⟩
  | false =>
    rw [hplanned, if_neg (by simp)] at hrun
    cases hl : s.state.locate p with
    | error f =>
      rw [hl] at hrun
      exact .inl ⟨rfl, f, u, hrun, hstaged⟩
    | ok k =>
      obtain rfl := eq_target hl
      rw [hl] at hrun
      change _ = renameTo l p.target s.state u at hrun
      unfold renameTo at hrun
      rw [hthere] at hrun
      cases hdirectory : s.state.isDirectory p.target with
      | true =>
        rw [isDirectory_iff.1 hdirectory] at hrun
        exact .inl ⟨rfl, _, u, hrun, hstaged⟩
      | false =>
        have hok : Disk.rename l p s =
            .ok () ⟨(u.state.remove l).put p.target (.file (.text text)), u.notices⟩ := by
          rw [hrun]
          unfold isDirectory at hdirectory
          rcases hn : s.state.node? p.target with _ | _ | c
          · rfl
          · rw [hn] at hdirectory
            cases hdirectory
          · rfl
        have hnodes : ((u.state.remove l).put p.target (.file (.text text))).nodes =
            d.nodes.insert p.target (.file (.text text)) := by
          show (u.state.remove l).nodes.insert _ _ = _
          rw [hstaged.discard]
        have hd : d.node? p.target ≠ some .directory := by
          intro hd
          have hd := isDirectory_iff.2 (h.keepsDirectories _ hd)
          rw [hdirectory] at hd
          cases hd
        -- the staged file is no directory, so the way to the path was there without it
        have hlocate : d.locate p = .ok p.target := locate_of_keeps h.keptDirectories hl
        exact .inr ⟨rfl, _, hok, ⟨hlocate, hd, hnodes⟩, by rw [← hu]; rfl⟩

/-! ## With the file replaced -/

theorem Replaced.keepsDirectories (h : Replaced d p text d') : KeepsDirectories d d' := by
  have hput : d'.nodes = (d.put p.target (.file (.text text))).nodes := h.2.2
  intro k hk
  rw [node?_congr hput]
  exact keepsDirectories_put (not_fixed_of_not_directory h.2.1) h.2.1 _ k hk

theorem Replaced.node? (h : Replaced d p text d') (l : Location) :
    d'.node? l = if p.target = l then some (.file (.text text)) else d.node? l := by
  rw [← node?_put _ (not_fixed_of_not_directory h.2.1)]
  exact node?_congr h.2.2 l

theorem Replaced.content? (h : Replaced d p text d') : d'.content? p = some (.text text) := by
  have hlocate : d'.locate p = .ok p.target := locate_of_keeps h.keepsDirectories h.1
  have hnode : d'.node? p.target = some (.file (.text text)) := by rw [h.node?, if_pos rfl]
  unfold Disk.content?
  rw [hlocate]
  dsimp only
  rw [hnode]

end Changefeed.Disk
