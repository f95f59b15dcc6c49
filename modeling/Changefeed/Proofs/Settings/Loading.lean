import Changefeed.Proofs.Disk.Paths
import Changefeed.Proofs.Feed.StartUp
import Changefeed.Proofs.Keyed
import Changefeed.Proofs.Text.Decimal
import Changefeed.Proofs.Text.Trim

/-!
# Settings and the environment

What is read from an environment is in a normal form (`Normal`): the words are known
ones, names have no blanks around them, and the path is one that can be written. Settings
in that form, and only they, are read from an environment in which they are written
(`reads_of_normal`), so what was read once is read again. But for the path, no way of
reading a variable takes notice of blanks around a text, so they may be put in as well
(`reads_of_spaced`). And as a normal policy is a known one, no feed is refused for it
(`Feed.openOn_eq_error`).
-/

namespace Changefeed

open Text (Padded trim)

namespace Position

/-! ## Blanks and positions -/

variable {s t : String}

/-- Where there is nothing but blanks there is no position. -/
theorem ofText_of_blank (h : trim s = "") :
    ofText s = .error (.format (.badText (.text s))) := by
  rw [ofText_ofString]
  unfold ofTextIn
  dsimp only
  rw [h]
  rfl

theorem trim_text_ne (p : Position) : trim p.text ≠ "" := by
  intro hblank
  have hread := ofText_of_blank hblank
  rw [ofText_text] at hread
  cases hread

/-- Blanks around a text do not change what it denotes, only how it is refused. -/
theorem ofText_congr (h : trim s = trim t) {p : Position} (hs : ofText s = .ok p) :
    ofText t = .ok p := by
  rw [ofText_ofString] at hs ⊢
  unfold ofTextIn at hs ⊢
  dsimp only at hs ⊢
  rw [← h]
  split at hs
  · rename_i hnull
    rw [if_pos hnull]
    exact hs
  · rename_i hnull
    rw [if_neg hnull]
    -- what is refused shows the text as it came, and only that differs
    split at hs
    · exact hs
    · cases hs
    · cases hs

end Position

namespace Settings

variable {v w : Option String} {s t default : String} {known : List String}
  {aliases : List (String × String)}

/-! ## Words -/

theorem normalWord_congr (h : trim s = trim t) : normalWord s = normalWord t :=
  congrArg Text.lowered h

/-- A variable comes to one of the words known. -/
theorem wordOr_mem (hdefault : default ∈ known) (v : Option String) :
    wordOr default known aliases v ∈ known := by
  cases v with
  | none => exact hdefault
  | some s =>
    unfold wordOr
    dsimp only
    split
    · assumption
    · exact hdefault

/-- The words known are normal, and none of them is an alias. -/
def AreNormal (known : List String) (aliases : List (String × String)) : Prop :=
  ∀ word ∈ known, normalWord word = word ∧ Keyed.find word aliases = none

instance : Decidable (AreNormal known aliases) := inferInstanceAs (Decidable (∀ _ ∈ _, _))

/-- A word that is known is read as it is. -/
theorem wordOr_of_mem (hnormal : AreNormal known aliases) (h : s ∈ known) :
    wordOr default known aliases (some s) = s := by
  obtain ⟨hword, halias⟩ := hnormal s h
  unfold wordOr
  dsimp only
  rw [hword, halias]
  exact if_pos h

/-! ## Names -/

/-- A text is not blank and has no blanks around it. -/
def IsName (s : String) : Prop := trim s = s ∧ s ≠ ""

instance : Decidable (IsName s) := inferInstanceAs (Decidable (_ ∧ _))

theorem isName_textOr (hdefault : IsName default) (v : Option String) :
    IsName (textOr default v) := by
  cases v with
  | none => exact hdefault
  | some s =>
    unfold textOr
    dsimp only
    split
    · exact hdefault
    · rename_i hs
      exact ⟨Text.trim_trim s, hs⟩

/-- A name is read as it is. -/
theorem textOr_of_isName (h : IsName s) : textOr default (some s) = s := by
  unfold textOr
  dsimp only
  rw [h.1, if_neg h.2]

/-! ## Yes and no -/

/-- The word for yes and the word for no. -/
def yesOrNo (b : Bool) : String := if b then "true" else "false"

theorem isYes_yesOrNo (b : Bool) : isYes (some (yesOrNo b)) = b := by
  cases b <;> decide

/-! ## Positions -/

theorem position?_text (r : Option Position) : position? (r.map Position.text) = .ok r := by
  cases r with
  | none => rfl
  | some p =>
    show (if trim p.text = "" then .ok none else (Position.ofText p.text).map some) = _
    rw [if_neg (Position.trim_text_ne p), Position.ofText_text]
    rfl

/-- A variable is refused if it is set, not blank, and denotes no position. -/
theorem position?_eq_error_iff :
    (∃ f, position? v = .error f) ↔ ∃ s, v = some s ∧ trim s ≠ "" ∧ ∀ p, Position.ofText s ≠ .ok p := by
  cases v with
  | none => simp [position?]
  | some s =>
    unfold position?
    dsimp only
    split
    · rename_i hblank
      simp [hblank]
    · rename_i hs
      cases hread : Position.ofText s with
      | ok p => simp [Except.map, hs, hread]
      | error f => simp [Except.map, hs, hread]

/-! ## Blanks -/

/-- Two variables are both not set, or set to the same but for blanks around it. -/
def Alike (v w : Option String) : Prop := v.map trim = w.map trim

theorem alike_of_padded (h : Option.Rel (fun s t : String => Padded s.toList t.toList) v w) :
    Alike v w := by
  cases h with
  | none => rfl
  | some hpadded => exact congrArg some (Text.trim_padded hpadded).symm

/-- Two variables that are alike can be told apart only by the blanks. -/
theorem Alike.cases (h : Alike v w) :
    v = none ∧ w = none ∨ ∃ s t, v = some s ∧ w = some t ∧ trim s = trim t := by
  unfold Alike at h
  cases v <;> cases w <;> simp_all

theorem Alike.wordOr_eq (h : Alike v w) :
    wordOr default known aliases v = wordOr default known aliases w := by
  obtain ⟨rfl, rfl⟩ | ⟨s, t, rfl, rfl, hst⟩ := h.cases
  · rfl
  · unfold wordOr
    dsimp only
    rw [normalWord_congr hst]

theorem Alike.textOr_eq (h : Alike v w) : textOr default v = textOr default w := by
  obtain ⟨rfl, rfl⟩ | ⟨s, t, rfl, rfl, hst⟩ := h.cases
  · rfl
  · unfold textOr
    dsimp only
    rw [hst]

theorem Alike.isYes_eq (h : Alike v w) : isYes v = isYes w := by
  obtain ⟨rfl, rfl⟩ | ⟨s, t, rfl, rfl, hst⟩ := h.cases
  · rfl
  · unfold isYes
    dsimp only
    rw [normalWord_congr hst]

theorem Alike.position?_eq (h : Alike v w) {r : Option Position} (hv : position? v = .ok r) :
    position? w = .ok r := by
  obtain ⟨rfl, rfl⟩ | ⟨s, t, rfl, rfl, hst⟩ := h.cases
  · exact hv
  · unfold position? at hv ⊢
    dsimp only at hv ⊢
    rw [← hst]
    split at hv
    · rename_i hblank
      rw [if_pos hblank]
      exact hv
    · rename_i hs
      rw [if_neg hs]
      cases hread : Position.ofText s with
      | error f =>
        rw [hread] at hv
        cases hv
      | ok p =>
        rw [hread] at hv
        rw [Position.ofText_congr hst hread]
        exact hv

/-! ## All variables -/

/-- Settings are what the variables of an environment come to. -/
structure Reads (env : Keyed String String) (s : Settings) : Prop where
  serverName : s.serverName = textOr "informix" (env.get? (variableName "SERVER_NAME"))
  snapshotMode : s.snapshotMode = wordOr "initial" ["initial", "no_data"]
    [("schema_only", "no_data")] (env.get? (variableName "SNAPSHOT_MODE"))
  checkpointBackend : s.checkpointBackend = wordOr "file" ["memory", "file"] []
    (env.get? (variableName "CHECKPOINT_BACKEND"))
  resumePath : s.resumePath =
    .ofText ((env.get? (variableName "RESUME_PATH")).getD "cdc_resume_positions.json")
  resumeSync : s.resumeSync = isYes (env.get? (variableName "RESUME_FSYNC"))
  orderPolicy : s.orderPolicy = wordOr "fail" ["fail", "skip"] []
    (env.get? (variableName "OUT_OF_ORDER_POLICY"))
  scope : s.scope = textOr "informix_cdc" (env.get? (variableName "METRICS_NAMESPACE"))
  resume : position? (env.get? (variableName "RESUME_LSN")) = .ok s.resume

variable {env env' : Keyed String String} {s : Settings}

/-- An environment has settings unless the position to resume from is refused. -/
theorem ofEnvironment_eq_ok_iff : ofEnvironment env = .ok s ↔ Reads env s := by
  unfold ofEnvironment
  dsimp only
  constructor
  · intro h
    cases hresume : position? (env.get? (variableName "RESUME_LSN")) with
    | error f =>
      rw [hresume] at h
      cases h
    | ok r =>
      rw [hresume] at h
      cases h
      exact ⟨rfl, rfl, rfl, rfl, rfl, rfl, rfl, hresume⟩
  · rintro ⟨h₁, h₂, h₃, h₄, h₅, h₆, h₇, hresume⟩
    rw [hresume, ← h₁, ← h₂, ← h₃, ← h₄, ← h₅, ← h₆, ← h₇]
    rfl

theorem ofEnvironment_eq_error_iff {f : Fault} : ofEnvironment env = .error f ↔
    position? (env.get? (variableName "RESUME_LSN")) = .error f := by
  unfold ofEnvironment
  dsimp only
  cases position? (env.get? (variableName "RESUME_LSN")) <;> constructor <;> intro h <;> cases h <;> rfl

/-! ## Written and read -/

/-- The form of settings that are read: the words are known ones, names are names, and the path can
be written. -/
structure Normal (s : Settings) : Prop where
  serverName : IsName s.serverName
  snapshotMode : s.snapshotMode ∈ ["initial", "no_data"]
  checkpointBackend : s.checkpointBackend ∈ ["memory", "file"]
  resumePath : s.resumePath.Proper
  orderPolicy : s.orderPolicy ∈ ["fail", "skip"]
  scope : IsName s.scope

theorem Reads.normal (h : Reads env s) : s.Normal where
  serverName := h.serverName ▸ isName_textOr (by decide) _
  snapshotMode := h.snapshotMode ▸ wordOr_mem (by decide) _
  checkpointBackend := h.checkpointBackend ▸ wordOr_mem (by decide) _
  resumePath := h.resumePath ▸ Path.proper_ofText _
  orderPolicy := h.orderPolicy ▸ wordOr_mem (by decide) _
  scope := h.scope ▸ isName_textOr (by decide) _

/-- What is written of settings: the texts of all variables, but for the position to resume from
if there is none. -/
def texts (s : Settings) : List (String × Option String) :=
  [("SERVER_NAME", some s.serverName), ("SNAPSHOT_MODE", some s.snapshotMode),
   ("CHECKPOINT_BACKEND", some s.checkpointBackend), ("RESUME_PATH", some s.resumePath.text),
   ("RESUME_FSYNC", some (yesOrNo s.resumeSync)), ("OUT_OF_ORDER_POLICY", some s.orderPolicy),
   ("METRICS_NAMESPACE", some s.scope), ("RESUME_LSN", s.resume.map Position.text)]

/-- Settings stand in an environment, whatever else does. -/
def WrittenIn (s : Settings) (env : Keyed String String) : Prop :=
  ∀ e ∈ s.texts, env.get? (variableName e.1) = e.2

/-- An environment with settings written over it. -/
def writtenTo (s : Settings) (env : Keyed String String) : Keyed String String :=
  env.setMany (s.texts.map fun e => (variableName e.1, e.2))

theorem writtenIn_writtenTo (s : Settings) (env : Keyed String String) :
    s.WrittenIn (s.writtenTo env) := by
  intro e he
  refine env.get?_setMany (e := (variableName e.1, e.2)) ?_ (List.mem_map_of_mem he)
  show (["SERVER_NAME", "SNAPSHOT_MODE", "CHECKPOINT_BACKEND", "RESUME_PATH", "RESUME_FSYNC",
    "OUT_OF_ORDER_POLICY", "METRICS_NAMESPACE", "RESUME_LSN"].map variableName).Nodup
  decide

/-- **Settings in normal form are read** where they are written. -/
theorem reads_of_normal (h : s.Normal) (hwritten : s.WrittenIn env) : Reads env s := by
  unfold WrittenIn texts at hwritten
  simp only [List.forall_mem_cons] at hwritten
  obtain ⟨hserver, hmode, hbackend, hpath, hsync, hpolicy, hscope, hresume, -⟩ := hwritten
  constructor
  case serverName => rw [hserver, textOr_of_isName h.serverName]
  case snapshotMode => rw [hmode, wordOr_of_mem (by decide) h.snapshotMode]
  case checkpointBackend => rw [hbackend, wordOr_of_mem (by decide) h.checkpointBackend]
  case resumePath => rw [hpath, Option.getD_some, h.resumePath.ofText_text]
  case resumeSync => rw [hsync, isYes_yesOrNo]
  case orderPolicy => rw [hpolicy, wordOr_of_mem (by decide) h.orderPolicy]
  case scope => rw [hscope, textOr_of_isName h.scope]
  case resume => rw [hresume, position?_text]

/-! ## Blanks put in -/

/-- The variables around whose text blanks are nothing. -/
def trimmedNames : List String :=
  ["SERVER_NAME", "SNAPSHOT_MODE", "CHECKPOINT_BACKEND", "RESUME_FSYNC", "OUT_OF_ORDER_POLICY",
   "METRICS_NAMESPACE", "RESUME_LSN"]

/-- An environment has the texts of another one with blanks around them, if with any, but for the
path, which is the same. -/
structure Spaced (env env' : Keyed String String) : Prop where
  path : env'.get? (variableName "RESUME_PATH") = env.get? (variableName "RESUME_PATH")
  others : ∀ name ∈ trimmedNames, Option.Rel (fun s t : String => Padded s.toList t.toList)
    (env.get? (variableName name)) (env'.get? (variableName name))

theorem variableName_inj {name name' : String} : variableName name = variableName name' ↔ name = name' :=
  String.append_right_inj "CDC_"

/-- Blanks may be put around the text of any variable but the path. -/
theorem spaced_insert (name : String) {s t : String} (hpath : name ≠ "RESUME_PATH")
    (h : env.get? (variableName name) = some s) (hpadded : Padded s.toList t.toList) :
    Spaced env (env.insert (variableName name) t) := by
  constructor
  · exact env.get?_insert_of_ne (mt variableName_inj.1 hpath) t
  · intro other _
    by_cases hother : name = other
    · subst hother
      rw [h, env.get?_insert_self]
      exact .some hpadded
    · rw [env.get?_insert_of_ne (mt variableName_inj.1 hother)]
      cases env.get? (variableName other) with
      | none => exact .none
      | some text => exact .some (.refl text.toList)

/-- **Settings that were read are read again** after blanks are put in. -/
theorem reads_of_spaced (h : Reads env s) (hspaced : Spaced env env') : Reads env' s := by
  have halike : ∀ name ∈ trimmedNames,
      Alike (env.get? (variableName name)) (env'.get? (variableName name)) :=
    fun name hname => alike_of_padded (hspaced.others name hname)
  constructor
  case serverName => rw [h.serverName, (halike "SERVER_NAME" (by decide)).textOr_eq]
  case snapshotMode => rw [h.snapshotMode, (halike "SNAPSHOT_MODE" (by decide)).wordOr_eq]
  case checkpointBackend =>
    rw [h.checkpointBackend, (halike "CHECKPOINT_BACKEND" (by decide)).wordOr_eq]
  case resumePath => rw [h.resumePath, hspaced.path]
  case resumeSync => rw [h.resumeSync, (halike "RESUME_FSYNC" (by decide)).isYes_eq]
  case orderPolicy => rw [h.orderPolicy, (halike "OUT_OF_ORDER_POLICY" (by decide)).wordOr_eq]
  case scope => rw [h.scope, (halike "METRICS_NAMESPACE" (by decide)).textOr_eq]
  case resume => exact (halike "RESUME_LSN" (by decide)).position?_eq h.resume

/-! ## Opening a feed -/

/-- The word for the policy names one. -/
theorem Normal.policy (h : s.Normal) : ∃ policy, OrderPolicy.ofText? s.options.policy = some policy := by
  show ∃ policy, OrderPolicy.ofText? s.orderPolicy = some policy
  have hmem := h.orderPolicy
  generalize s.orderPolicy = word at hmem ⊢
  rcases List.mem_cons.1 hmem with rfl | hmem
  · exact ⟨.fail, rfl⟩
  · rw [List.mem_singleton.1 hmem]
    exact ⟨.skip, rfl⟩

/-! ## Settings that are read -/

/--
**Settings are canonical and always usable.** An environment has settings unless its position to
resume from is set, is not blank and denotes none. Settings that were read are read again from
every environment that they are written over, and from every environment that is the first one
with blanks around the texts of variables, but for the path. A feed with these settings is not
refused for their policy: if it does not open, its store had no answer.
-/
theorem canonical (env : Keyed String String) :
    ((∃ f, ofEnvironment env = .error f) ↔ ∃ t, env.get? "CDC_RESUME_LSN" = some t
      ∧ Text.isBlankText t = false ∧ ∀ p, Position.ofValue (.text t) ≠ .ok p)
    ∧ ∀ s, ofEnvironment env = .ok s →
      (∀ before, ofEnvironment (s.writtenTo before) = .ok s)
      ∧ (∀ env', Spaced env env' → ofEnvironment env' = .ok s)
      ∧ (∃ policy, OrderPolicy.ofText? s.options.policy = some policy)
      ∧ ∀ (S σ : Type) [CheckpointStore σ] (store : σ) (sink : Sink LogEntry) (l t : Logged S)
          (f : Fault), Feed.openOn s.options store sink l = .error f t →
        CheckpointStore.load store s.serverName = .error f := by
  constructor
  · simp only [ofEnvironment_eq_error_iff, position?_eq_error_iff, ne_eq, ← Text.isBlankText_iff,
      Bool.not_eq_true]
    exact Iff.rfl
  · intro s hs
    have hreads := ofEnvironment_eq_ok_iff.1 hs
    obtain ⟨policy, hpolicy⟩ := hreads.normal.policy
    refine ⟨fun before => ?_, fun env' hspaced => ?_, ⟨policy, hpolicy⟩, ?_⟩
    · exact ofEnvironment_eq_ok_iff.2 (reads_of_normal hreads.normal (s.writtenIn_writtenTo before))
    · exact ofEnvironment_eq_ok_iff.2 (reads_of_spaced hreads hspaced)
    · intro S σ _ store sink l t f hopen
      exact Feed.openOn_eq_error hpolicy hopen

/-- An environment with words in capitals, blanks, an alias and a word that is no word for no. -/
def mixedEnvironment : Keyed String String := Keyed.ofList
  [("CDC_SERVER_NAME", " orders\n"), ("CDC_SNAPSHOT_MODE", "Schema_Only"),
   ("CDC_RESUME_PATH", "./state//resume.json"), ("CDC_RESUME_FSYNC", "off"),
   ("CDC_OUT_OF_ORDER_POLICY", "SKIP"), ("CDC_RESUME_LSN", "Null")]

/-- What it comes to. -/
def mixedSettings : Settings :=
  ⟨"orders", "no_data", "file", ⟨.here, ["state", "resume.json"]⟩, true, "skip", "informix_cdc",
    some .null⟩

/-- Settings with all of that are read again from where they are written and from where the
position has blanks around it; a position that is no whole number is refused. -/
theorem canonical_of_mixed :
    ofEnvironment mixedEnvironment = .ok mixedSettings
    ∧ ofEnvironment (mixedSettings.writtenTo .empty) = .ok mixedSettings
    ∧ Spaced mixedEnvironment (mixedEnvironment.insert "CDC_RESUME_LSN" "\u3000Null ")
    ∧ ofEnvironment (mixedEnvironment.insert "CDC_RESUME_LSN" "\u3000Null ") = .ok mixedSettings
    ∧ ∃ f, ofEnvironment (mixedEnvironment.insert "CDC_RESUME_LSN" "1.5") = .error f := by
  have hread : ofEnvironment mixedEnvironment = .ok mixedSettings := rfl
  have hpadded : Padded "Null".toList "\u3000Null ".toList :=
    ⟨['\u3000'], [' '], rfl, by simp [Text.isBlank, Text.blankRanges],
      by simp [Text.isBlank, Text.blankRanges]⟩
  have hspaced : Spaced mixedEnvironment (mixedEnvironment.insert "CDC_RESUME_LSN" "\u3000Null ") :=
    spaced_insert "RESUME_LSN" (by decide) rfl hpadded
  obtain ⟨hagain, hblanks, _, _⟩ := (canonical mixedEnvironment).2 mixedSettings hread
  refine ⟨hread, hagain .empty, hspaced, hblanks _ hspaced, ?_⟩
  exact (canonical _).1.2 ⟨"1.5", rfl, rfl, fun p h => by cases h⟩

end Settings

end Changefeed
