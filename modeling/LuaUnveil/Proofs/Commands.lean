import LuaUnveil.Command.Init
import LuaUnveil.Command.Run
import LuaUnveil.Proofs.Blanks
import LuaUnveil.Proofs.FileTree

/-!
# Commands on a file tree

A command either fails and leaves all files as they are, or writes one file and nothing else.

**Looking up.**  Everything that a run does before it writes only looks at the tree.
`FileTree.LooksUp` says this of a command, together with the values with which it succeeds: the
settings that a request uses (`RunRequest.UsesSettings`) and the scripts that a source yields
(`ScriptSource.Yields`).

**One file.**  `RunRequest.run_cases` and `SettingsStep.run_cases` say all that the two commands can
do to a tree.  What a sequence of commands does follows by induction from what one of them does.
-/

namespace LuaUnveil

/-! ## Looking up -/

/-- A command that only looks something up: it leaves the tree as it is, and the values with which
it can succeed are those with a property. -/
structure FileTree.LooksUp {ε α : Type} (tree : FileTree)
    (command : StateM FileTree (Except ε α)) (F : α → Prop) : Prop where
  unchanged : (tree.perform command).2 = tree
  ok_iff : ∀ a, (tree.perform command).1 = .ok a ↔ F a

namespace FileTree.LooksUp

variable {ε δ α β : Type} {tree : FileTree}

lemma of_ok {command : StateM FileTree (Except ε α)} {a : α}
    (h : tree.perform command = (.ok a, tree)) : tree.LooksUp command (a = ·) :=
  ⟨by rw [h], fun b => by rw [h, Except.ok.injEq]⟩

lemma of_error {command : StateM FileTree (Except ε α)} {e : ε}
    (h : tree.perform command = (.error e, tree)) : tree.LooksUp command (fun _ => False) :=
  ⟨by rw [h], fun b => by simp [h]⟩

lemma perform_eq {command : StateM FileTree (Except ε α)} {F : α → Prop}
    (h : tree.LooksUp command F) {a : α} (ha : F a) : tree.perform command = (.ok a, tree) :=
  Prod.ext ((h.ok_iff a).mpr ha) h.unchanged

lemma exists_perform_eq_error {command : StateM FileTree (Except ε α)} {F : α → Prop}
    (h : tree.LooksUp command F) (hnone : ¬ ∃ a, F a) :
    ∃ e, tree.perform command = (.error e, tree) := by
  cases hresult : (tree.perform command).1 with
  | error e => exact ⟨e, Prod.ext hresult h.unchanged⟩
  | ok a => exact absurd ⟨a, (h.ok_iff a).mp hresult⟩ hnone

/-- The value that is found is the only one. -/
lemma unique {command : StateM FileTree (Except ε α)} {F : α → Prop}
    (h : tree.LooksUp command F) {a a' : α} (ha : F a) (ha' : F a') : a = a' := by
  rw [← h.ok_iff] at ha ha'
  exact Except.ok.inj (ha.symm.trans ha')

/-- One command after the other, where the first one has to succeed. -/
lemma bind {command : StateM FileTree (Except ε α)}
    {next : Except ε α → StateM FileTree (Except δ β)} {F : α → Prop} {G : α → β → Prop}
    (h : tree.LooksUp command F) (hnext : ∀ a, tree.LooksUp (next (.ok a)) (G a))
    (herror : ∀ e, ∃ d, next (.error e) = pure (.error d)) :
    tree.LooksUp (command >>= next) (fun b => ∃ a, F a ∧ G a b) := by
  by_cases hfound : ∃ a, F a
  · obtain ⟨a, ha⟩ := hfound
    have hperform : tree.perform (command >>= next) = tree.perform (next (.ok a)) := by
      rw [perform_bind, h.perform_eq ha]
    refine ⟨by rw [hperform]; exact (hnext a).unchanged, fun b => ?_⟩
    rw [hperform, (hnext a).ok_iff]
    constructor
    · intro hb
      exact ⟨a, ha, hb⟩
    · rintro ⟨a', ha', hb⟩
      rwa [h.unique ha ha']
  · obtain ⟨e, he⟩ := h.exists_perform_eq_error hfound
    obtain ⟨d, hd⟩ := herror e
    have hperform : tree.perform (command >>= next) = (.error d, tree) := by
      rw [perform_bind, he, hd, perform_pure]
    refine ⟨by rw [hperform], fun b => ?_⟩
    simp only [hperform, reduceCtorEq, false_iff]
    rintro ⟨a, ha, -⟩
    exact hfound ⟨a, ha⟩

lemma congr {command : StateM FileTree (Except ε α)} {F G : α → Prop}
    (h : tree.LooksUp command F) (hiff : ∀ a, F a ↔ G a) : tree.LooksUp command G :=
  ⟨h.unchanged, fun a => (h.ok_iff a).trans (hiff a)⟩

lemma read (tree : FileTree) (workDir : Place) (input : Content) (path : Text) :
    tree.LooksUp ((host workDir input).read path) (tree.read workDir path = .ok ·) :=
  ⟨rfl, fun _ => Iff.rfl⟩

end FileTree.LooksUp

/-- The settings of a directory: those of its settings file, if that can be read and understood. -/
def FileTree.settingsIn? (tree : FileTree) (workDir : Place) (directory : Text) : Option Settings :=
  (tree.read workDir (Path.join directory settingsFileName)).toOption.bind Settings.parse?

/-- The settings that a request uses: those of the file that it names, or else those of the nearest
directory that has any, or else the default ones.  A working directory that is not there any more
has no directories above it. -/
inductive RunRequest.UsesSettings (request : RunRequest) (tree : FileTree) (workDir : Place) :
    Settings → Prop
  | named {path text : Text} {settings : Settings} (hpath : request.settings = some path)
      (hread : tree.read workDir path = .ok text) (hparse : Settings.parse? text = some settings) :
      UsesSettings request tree workDir settings
  | nearest (hnone : request.settings = none) (hdirectory : tree.at? workDir = some .directory) :
      UsesSettings request tree workDir
        (((Path.ancestors ('/' :: Path.ofParts workDir) searchDepth).findSome?
          (tree.settingsIn? workDir)).getD {})
  | gone (hnone : request.settings = none) (hgone : tree.at? workDir ≠ some .directory) :
      UsesSettings request tree workDir {}

namespace RunRequest

variable {request : RunRequest} {tree : FileTree} {workDir : Place} {settings : Settings}

lemma usesSettings_iff_of_directory (hnone : request.settings = none)
    (hdirectory : tree.at? workDir = some .directory) :
    request.UsesSettings tree workDir settings ↔
      ((Path.ancestors ('/' :: Path.ofParts workDir) searchDepth).findSome?
        (tree.settingsIn? workDir)).getD {} = settings := by
  constructor
  · rintro (⟨hpath, -, -⟩ | - | ⟨-, hgone⟩)
    · rw [hnone] at hpath
      cases hpath
    · rfl
    · exact absurd hdirectory hgone
  · rintro rfl
    exact .nearest hnone hdirectory

lemma usesSettings_iff_of_gone (hnone : request.settings = none)
    (hgone : tree.at? workDir ≠ some .directory) :
    request.UsesSettings tree workDir settings ↔ {} = settings := by
  constructor
  · rintro (⟨hpath, -, -⟩ | ⟨-, hdirectory⟩ | -)
    · rw [hnone] at hpath
      cases hpath
    · exact absurd hdirectory hgone
    · rfl
  · rintro rfl
    exact .gone hnone hgone

end RunRequest

/-- The scripts of a source, each with its label: the texts of the files in their order, a bundled
script, or the standard input. -/
inductive ScriptSource.Yields (tree : FileTree) (workDir : Place) (input : Content) :
    ScriptSource → List Script → Prop
  | files {paths : List Text} {scripts : List Script}
      (hread : List.Forall₂ (fun path script =>
        script.label = path ∧ tree.read workDir path = .ok script.text) paths scripts) :
      Yields tree workDir input (.files paths) scripts
  | bundled {name : Text} {e : Example} (hfind : Example.find? name = some e) :
      Yields tree workDir input (.bundled name) [⟨"example:".toList ++ e.name, e.source⟩]
  | standardInput {text : Text} (hinput : input = .text text) :
      Yields tree workDir input .standardInput [⟨"<stdin>".toList, text⟩]

namespace ScriptSource.Yields

variable {tree : FileTree} {workDir : Place} {input : Content} {scripts : List Script}

lemma files_iff {paths : List Text} :
    Yields tree workDir input (.files paths) scripts ↔
      List.Forall₂ (fun path script =>
        script.label = path ∧ tree.read workDir path = .ok script.text) paths scripts := by
  constructor
  · rintro ⟨hread⟩
    exact hread
  · exact .files

lemma bundled_iff {name : Text} :
    Yields tree workDir input (.bundled name) scripts ↔
      ∃ e, Example.find? name = some e ∧
        [⟨"example:".toList ++ e.name, e.source⟩] = scripts := by
  constructor
  · intro h
    cases h with
    | bundled hfind => exact ⟨_, hfind, rfl⟩
  · rintro ⟨e, hfind, rfl⟩
    exact .bundled hfind

lemma standardInput_iff :
    Yields tree workDir input .standardInput scripts ↔
      ∃ text, input = .text text ∧ [⟨"<stdin>".toList, text⟩] = scripts := by
  constructor
  · intro h
    cases h with
    | standardInput hinput => exact ⟨_, hinput, rfl⟩
  · rintro ⟨text, hinput, rfl⟩
    exact .standardInput hinput

end ScriptSource.Yields

section LooksUp

variable (tree : FileTree) (workDir : Place) (input : Content)

/-- The nearest settings are the first ones among the directories. -/
lemma perform_firstSettings (directories : List Text) :
    tree.perform (firstSettings (FileTree.host workDir input) directories)
      = (directories.findSome? (tree.settingsIn? workDir), tree) := by
  induction directories with
  | nil => rfl
  | cons directory directories ih =>
      rw [firstSettings, FileTree.perform_bind, FileTree.perform_read, List.findSome?_cons,
        FileTree.settingsIn?]
      cases hread : tree.read workDir (Path.join directory settingsFileName) with
      | error fault => exact ih
      | ok text =>
          cases hparse : Settings.parse? text with
          | none => simpa [Except.toOption, hparse] using ih
          | some settings => simp [Except.toOption, hparse, FileTree.perform_pure]

/-- Settings from a file are what its text says. -/
lemma looksUp_loadSettings (path : Text) :
    tree.LooksUp (loadSettings (FileTree.host workDir input) path)
      (fun settings => ∃ text, tree.read workDir path = .ok text ∧
        Settings.parse? text = some settings) := by
  refine .bind (.read tree workDir input path) (fun text => ?_) fun fault => ⟨_, rfl⟩
  simp only
  cases hparse : Settings.parse? text with
  | none => exact .congr (.of_error rfl) fun settings => by simp
  | some settings => exact .congr (.of_ok rfl) fun settings' => by simp

lemma looksUp_requestSettings (request : RunRequest) :
    tree.LooksUp (request.loadSettings (FileTree.host workDir input))
      (request.UsesSettings tree workDir) := by
  unfold RunRequest.loadSettings
  cases hrequest : request.settings with
  | none =>
      by_cases hdirectory : tree.at? workDir = some .directory
      · refine .congr (.of_ok ?_) fun settings =>
          (RunRequest.usesSettings_iff_of_directory hrequest hdirectory).symm
        simp only [FileTree.perform_bind, FileTree.perform_workDir,
          FileTree.absolutePath_of_directory hdirectory, discoverSettings, perform_firstSettings,
          FileTree.perform_pure]
      · refine .congr (.of_ok ?_) fun settings =>
          (RunRequest.usesSettings_iff_of_gone hrequest hdirectory).symm
        simp only [FileTree.perform_bind, FileTree.perform_workDir,
          FileTree.absolutePath_of_gone hdirectory, FileTree.perform_pure]
  | some path =>
      refine (looksUp_loadSettings tree workDir input path).congr fun settings => ?_
      constructor
      · rintro ⟨text, hread, hparse⟩
        exact .named hrequest hread hparse
      · have hnone : request.settings ≠ none := by simp [hrequest]
        rintro (⟨hpath, hread, hparse⟩ | ⟨h, -⟩ | ⟨h, -⟩)
        · rw [hrequest] at hpath
          obtain rfl := Option.some.inj hpath
          exact ⟨_, hread, hparse⟩
        · exact absurd h hnone
        · exact absurd h hnone

lemma looksUp_loadFiles (paths : List Text) :
    tree.LooksUp (loadFiles (FileTree.host workDir input) paths)
      (List.Forall₂ (fun path script =>
        script.label = path ∧ tree.read workDir path = .ok script.text) paths) := by
  induction paths with
  | nil =>
      refine .congr (.of_ok rfl) fun scripts => ?_
      rw [List.forall₂_nil_left_iff, eq_comm]
  | cons path paths ih =>
      rw [loadFiles]
      refine .congr (.bind (G := fun text scripts => ∃ later, List.Forall₂ (fun path script =>
          script.label = path ∧ tree.read workDir path = .ok script.text) paths later ∧
            ⟨path, text⟩ :: later = scripts) (.read tree workDir input path) (fun text => ?_)
        fun fault => ⟨_, rfl⟩) fun scripts => ?_
      · exact .bind ih (fun later => .of_ok rfl) fun failure => ⟨failure, rfl⟩
      · constructor
        · rintro ⟨text, hread, later, hlater, rfl⟩
          exact .cons ⟨rfl, hread⟩ hlater
        · rintro (_ | ⟨⟨rfl, hread⟩, hlater⟩)
          exact ⟨_, hread, _, hlater, rfl⟩

lemma looksUp_loadScripts (source : ScriptSource) :
    tree.LooksUp (loadScripts (FileTree.host workDir input) source)
      (source.Yields tree workDir input) := by
  cases source with
  | files paths =>
      exact (looksUp_loadFiles tree workDir input paths).congr fun scripts =>
        ScriptSource.Yields.files_iff.symm
  | bundled name =>
      rw [loadScripts]
      cases hfind : Example.find? name with
      | none =>
          refine .congr (.of_error rfl) fun scripts => ?_
          simp [ScriptSource.Yields.bundled_iff, hfind]
      | some e =>
          refine .congr (.of_ok rfl) fun scripts => ?_
          simp [ScriptSource.Yields.bundled_iff, hfind]
  | standardInput =>
      cases input with
      | text t =>
          refine .congr (.of_ok rfl) fun scripts => ?_
          simp [ScriptSource.Yields.standardInput_iff]
      | bytes data =>
          refine .congr (.of_error rfl) fun scripts => ?_
          simp [ScriptSource.Yields.standardInput_iff]

end LooksUp

/-! ## Running -/

/-- Whether a script holds more than blanks. -/
def Script.HasCode (script : Script) : Prop := ∃ c ∈ script.text, isBlank c = false

lemma Script.not_hasCode_iff {script : Script} :
    ¬ script.HasCode ↔ (trim script.text).isEmpty = true := by
  rw [List.isEmpty_iff, trim_eq_nil_iff]
  simp [HasCode]

/-- Scripts are deobfuscated if all of them have code, each on its own. -/
lemma deobfuscateAll_of_hasCode [SearchEngine] {scripts : List Script}
    (h : ∀ script ∈ scripts, script.HasCode) (options : Options) :
    deobfuscateAll options scripts
      = .ok (scripts.map fun script => ⟨script.label, deobfuscate options script.text⟩) := by
  have hnone : (scripts.find? fun script => (trim script.text).isEmpty) = none := by
    refine List.find?_eq_none.mpr fun script hscript hempty => ?_
    exact Script.not_hasCode_iff.mpr hempty (h script hscript)
  rw [deobfuscateAll, hnone]

/-- And they are refused if one of them has none. -/
lemma exists_deobfuscateAll_eq_error [SearchEngine] {scripts : List Script}
    (h : ¬ ∀ script ∈ scripts, script.HasCode) (options : Options) :
    ∃ failure, deobfuscateAll options scripts = .error failure := by
  rw [deobfuscateAll]
  cases hfind : scripts.find? fun script => (trim script.text).isEmpty with
  | some script => exact ⟨_, rfl⟩
  | none =>
      refine absurd (fun script hscript => ?_) h
      by_contra hcode
      exact List.find?_eq_none.mp hfind script hscript (Script.not_hasCode_iff.mp hcode)

namespace RunRequest

/-- What a request needs in order to succeed: settings, scripts with code in them, and a file to
write to. -/
structure Ready (request : RunRequest) (tree : FileTree) (workDir : Place) (input : Content)
    (path : Text) (settings : Settings) (scripts : List Script) : Prop where
  usesSettings : request.UsesSettings tree workDir settings
  yields : request.source.Yields tree workDir input scripts
  hasCode : ∀ script ∈ scripts, script.HasCode
  writable : ∃ place, tree.Writable workDir path place

/-- The reports about scripts, each made on its own, under what the request or the settings switch
on. -/
def reports [SearchEngine] (request : RunRequest) (settings : Settings) (scripts : List Script) :
    List Report :=
  scripts.map fun script =>
    { source := script.label
      outcome := deobfuscate
        { simplifyFully := settings.simplify.getD false || request.simplifyFully
          reportUndecoded := settings.warnings.getD false || request.reportUndecoded }
        script.text }

lemma report_of_hasCode [SearchEngine] (request : RunRequest) (colours : Bool) (settings : Settings)
    {scripts : List Script} (h : ∀ script ∈ scripts, script.HasCode) :
    request.report colours settings scripts
      = .ok (Report.render ((request.format.or settings.format).getD .terminal) colours
          (request.reports settings scripts)) := by
  rw [report, deobfuscateAll_of_hasCode h]
  rfl

lemma exists_report_eq_error [SearchEngine] (request : RunRequest) (colours : Bool)
    (settings : Settings) {scripts : List Script} (h : ¬ ∀ script ∈ scripts, script.HasCode) :
    ∃ failure, request.report colours settings scripts = .error failure := by
  obtain ⟨failure, hfailure⟩ := exists_deobfuscateAll_eq_error h
    (settings.mergedOptions request.simplifyFully request.reportUndecoded)
  exact ⟨failure, by rw [report, hfailure]; rfl⟩

section Ends

variable [SearchEngine] {request : RunRequest} {tree : FileTree} {workDir : Place} {input : Content}
  {settings : Settings} {scripts : List Script} {path text : Text} (colours : Bool)

lemma run_of_no_settings (h : ¬ ∃ settings, request.UsesSettings tree workDir settings) :
    ∃ failure, tree.perform (request.run (FileTree.host workDir input) colours)
      = (.error failure, tree) := by
  obtain ⟨failure, hfailure⟩ :=
    (looksUp_requestSettings tree workDir input request).exists_perform_eq_error h
  refine ⟨failure, ?_⟩
  rw [run, FileTree.perform_bind, hfailure]
  rfl

variable (hsettings : request.UsesSettings tree workDir settings)

include hsettings

lemma run_of_no_scripts (h : ¬ ∃ scripts, request.source.Yields tree workDir input scripts) :
    ∃ failure, tree.perform (request.run (FileTree.host workDir input) colours)
      = (.error failure, tree) := by
  obtain ⟨failure, hfailure⟩ :=
    (looksUp_loadScripts tree workDir input request.source).exists_perform_eq_error h
  refine ⟨failure, ?_⟩
  rw [run, FileTree.perform_bind,
    (looksUp_requestSettings tree workDir input request).perform_eq hsettings]
  simp only [FileTree.perform_bind, hfailure]
  rfl

variable (hscripts : request.source.Yields tree workDir input scripts)

include hscripts

lemma run_of_report_error {failure : Failure}
    (h : request.report colours settings scripts = .error failure) :
    tree.perform (request.run (FileTree.host workDir input) colours) = (.error failure, tree) := by
  rw [run, FileTree.perform_bind,
    (looksUp_requestSettings tree workDir input request).perform_eq hsettings]
  simp only [FileTree.perform_bind,
    (looksUp_loadScripts tree workDir input request.source).perform_eq hscripts, h]
  rfl

variable (houtput : request.output = some path)
  (hreport : request.report colours settings scripts = .ok text)

include houtput hreport

lemma run_of_write_error {fault : FileFault} (h : tree.write workDir path text = .error fault) :
    tree.perform (request.run (FileTree.host workDir input) colours)
      = (.error (.file (some path) fault), tree) := by
  rw [run, FileTree.perform_bind,
    (looksUp_requestSettings tree workDir input request).perform_eq hsettings]
  simp only [FileTree.perform_bind,
    (looksUp_loadScripts tree workDir input request.source).perform_eq hscripts, hreport, houtput,
    FileTree.perform_write_error tree workDir input h]
  rfl

lemma run_of_write_ok {after : FileTree} (h : tree.write workDir path text = .ok after) :
    tree.perform (request.run (FileTree.host workDir input) colours) = (.ok [], after) := by
  rw [run, FileTree.perform_bind,
    (looksUp_requestSettings tree workDir input request).perform_eq hsettings]
  simp only [FileTree.perform_bind,
    (looksUp_loadScripts tree workDir input request.source).perform_eq hscripts, hreport, houtput,
    FileTree.perform_write_ok tree workDir input h]
  rfl

end Ends

/-- **A run writes one file or none.**  If a request with an output path is ready, its reports are
written to the file that the path names, and nothing else changes; if not, it fails and nothing
changes at all. -/
theorem run_cases [SearchEngine] (request : RunRequest) {path : Text}
    (houtput : request.output = some path) (colours : Bool) (workDir : Place) (input : Content)
    (tree : FileTree) :
    let result := tree.perform (request.run (FileTree.host workDir input) colours)
    (∃ settings scripts place, request.Ready tree workDir input path settings scripts ∧
        result.1 = .ok [] ∧
        tree.Wrote result.2 workDir path place
          (Report.render ((request.format.or settings.format).getD .terminal) colours
            (request.reports settings scripts))) ∨
      (¬ ∃ settings scripts, request.Ready tree workDir input path settings scripts) ∧
        ∃ failure, result = (.error failure, tree) := by
  intro result
  -- what a run needs is tried in the order in which the run asks for it
  by_cases hsome : ∃ settings, request.UsesSettings tree workDir settings
  case neg =>
    refine Or.inr ⟨?_, run_of_no_settings colours hsome⟩
    rintro ⟨settings, scripts, hready⟩
    exact hsome ⟨settings, hready.usesSettings⟩
  obtain ⟨settings, hsettings⟩ := hsome
  by_cases hsome : ∃ scripts, request.source.Yields tree workDir input scripts
  case neg =>
    refine Or.inr ⟨?_, run_of_no_scripts colours hsettings hsome⟩
    rintro ⟨settings', scripts, hready⟩
    exact hsome ⟨scripts, hready.yields⟩
  obtain ⟨scripts, hscripts⟩ := hsome
  by_cases hcode : ∀ script ∈ scripts, script.HasCode
  case neg =>
    obtain ⟨failure, hfailure⟩ := exists_report_eq_error request colours settings hcode
    refine Or.inr ⟨?_, failure, run_of_report_error colours hsettings hscripts hfailure⟩
    rintro ⟨settings', scripts', hready⟩
    rw [(looksUp_loadScripts tree workDir input request.source).unique hscripts
      hready.yields] at hcode
    exact hcode hready.hasCode
  have hreport := report_of_hasCode request colours settings hcode
  rcases tree.write_cases workDir path (Report.render
      ((request.format.or settings.format).getD .terminal) colours
      (request.reports settings scripts)) with
    ⟨place, after, hwrite, hwrote⟩ | ⟨⟨fault, hwrite⟩, hnone⟩
  · have hresult : result = (.ok [], after) :=
      run_of_write_ok colours hsettings hscripts houtput hreport hwrite
    rw [hresult]
    exact Or.inl ⟨settings, scripts, place,
      ⟨hsettings, hscripts, hcode, place, hwrote.writable⟩, rfl, hwrote⟩
  · refine Or.inr ⟨?_, _, run_of_write_error colours hsettings hscripts houtput hreport hwrite⟩
    rintro ⟨settings', scripts', hready⟩
    exact hnone hready.writable

end RunRequest

/-! ## Settings files -/

/-- One use of the command that writes the first settings file. -/
structure SettingsStep where
  path : Text
  force : Bool
  deriving Repr, DecidableEq

namespace SettingsStep

/-- What one use of the command gives on a tree, and the tree that it leaves. -/
def run (step : SettingsStep) (workDir : Place) (input : Content) (tree : FileTree) :
    Except Failure Unit × FileTree :=
  tree.perform (writeSettings (FileTree.host workDir input) step.path step.force)

/-- The tree that uses of the command leave, one after the other. -/
def runAll (workDir : Place) (input : Content) (tree : FileTree) (steps : List SettingsStep) :
    FileTree :=
  steps.foldl (fun tree step => (step.run workDir input tree).2) tree

/-- What makes a use of the command fail: something stands there and the user does not insist, or
the path names no file that can be written. -/
def Refused (step : SettingsStep) (workDir : Place) (tree : FileTree) : Prop :=
  (tree.has workDir step.path = true ∧ step.force = false) ∨
    ¬ ∃ place, tree.Writable workDir step.path place

/-- **One use writes one file or none**: it is refused and nothing changes, or the settings are
written to a file that is new or that the user insists on. -/
theorem run_cases (step : SettingsStep) (workDir : Place) (input : Content) (tree : FileTree) :
    (step.Refused workDir tree ∧ ∃ failure, step.run workDir input tree = (.error failure, tree)) ∨
      ∃ place, (step.run workDir input tree).1 = .ok () ∧
        tree.Wrote (step.run workDir input tree).2 workDir step.path place settingsTemplate ∧
        (step.force = true ∨ tree.at? place = none) := by
  rw [run, writeSettings, FileTree.perform_bind, FileTree.perform_has]
  simp only
  by_cases hexists : (tree.has workDir step.path && !step.force) = true
  · rw [if_pos hexists]
    exact Or.inl ⟨Or.inl (by simpa using hexists), _, rfl⟩
  · rw [if_neg hexists, FileTree.perform_bind]
    rcases tree.write_cases workDir step.path settingsTemplate with
      ⟨place, after, hwrite, hwrote⟩ | ⟨⟨fault, hwrite⟩, hnone⟩
    · rw [FileTree.perform_write_ok tree workDir input hwrite]
      refine Or.inr ⟨place, rfl, hwrote, ?_⟩
      cases hforce : step.force with
      | true => exact Or.inl rfl
      | false => simpa [FileTree.has, hwrote.writable.locate, hforce] using hexists
    · rw [FileTree.perform_write_error tree workDir input hwrite]
      exact Or.inl ⟨Or.inr hnone, _, rfl⟩

/-- A use that changes what stood at a place insists, and its path names that place. -/
lemma force_of_changes {step : SettingsStep} {workDir : Place} {input : Content}
    {tree : FileTree} {place : Place} {entry : FileEntry} (hentry : tree.at? place = some entry)
    (hchanged : (step.run workDir input tree).2.at? place ≠ some entry) :
    step.force = true ∧ tree.Writable workDir step.path place := by
  rcases step.run_cases workDir input tree with
    ⟨-, failure, hfailure⟩ | ⟨target, -, hwrote, hnew⟩
  · rw [hfailure] at hchanged
    exact absurd hentry hchanged
  · obtain rfl : place = target := by
      by_contra hne
      exact hchanged ((hwrote.other place hne).trans hentry)
    refine ⟨hnew.resolve_right ?_, hwrote.writable⟩
    rw [hentry]
    simp

/-- **What stood at a place was overwritten by a use that insists**, if it is not there after any
number of uses. -/
theorem exists_force_of_changes {workDir : Place} {input : Content} {steps : List SettingsStep}
    {tree : FileTree} {place : Place} {entry : FileEntry} (hentry : tree.at? place = some entry)
    (hchanged : (runAll workDir input tree steps).at? place ≠ some entry) :
    ∃ earlier step later, steps = earlier ++ step :: later ∧ step.force = true ∧
      (runAll workDir input tree earlier).Writable workDir step.path place := by
  induction steps generalizing tree with
  | nil => exact absurd hentry hchanged
  | cons step steps ih =>
      by_cases hkept : (step.run workDir input tree).2.at? place = some entry
      · obtain ⟨earlier, forced, later, rfl, hforce, hplace⟩ := ih hkept hchanged
        exact ⟨step :: earlier, forced, later, rfl, hforce, hplace⟩
      · obtain ⟨hforce, hplace⟩ := force_of_changes hentry hkept
        exact ⟨[], step, steps, rfl, hforce, hplace⟩

end SettingsStep

/-! ## All or nothing -/

/-- **Commands are all or nothing on the files.**  On any tree:

* A request with an output path either is ready, and then the answer is empty, the reports of its
  scripts are in the file that the path names, and every other place is as it was; or it is not
  ready, and then it fails and the tree is as it was.
* However often settings files have been written, the next use of the command either is refused,
  and then it fails and the tree is as it was; or it writes the settings to one file, and nothing
  stood there before or the user insists.
* What has stood at a place and does not stand there after any number of uses was overwritten by a
  use that insists and whose path names this place. -/
theorem commands_all_or_nothing [SearchEngine] (workDir : Place) (input : Content)
    (tree : FileTree) :
    (∀ (request : RunRequest) (path : Text) (colours : Bool), request.output = some path →
      let result := tree.perform (request.run (FileTree.host workDir input) colours)
      (∃ settings scripts place, request.Ready tree workDir input path settings scripts ∧
          result.1 = .ok [] ∧
          tree.Wrote result.2 workDir path place
            (Report.render ((request.format.or settings.format).getD .terminal) colours
              (request.reports settings scripts))) ∨
        (¬ ∃ settings scripts, request.Ready tree workDir input path settings scripts) ∧
          ∃ failure, result = (.error failure, tree)) ∧
    (∀ (steps : List SettingsStep) (next : SettingsStep),
      let now := SettingsStep.runAll workDir input tree steps
      let result := next.run workDir input now
      (next.Refused workDir now ∧ ∃ failure, result = (.error failure, now)) ∨
        ∃ place, result.1 = .ok () ∧
          now.Wrote result.2 workDir next.path place settingsTemplate ∧
          (next.force = true ∨ now.at? place = none)) ∧
    ∀ (steps : List SettingsStep) (place : Place) (entry : FileEntry),
      tree.at? place = some entry →
      (SettingsStep.runAll workDir input tree steps).at? place ≠ some entry →
      ∃ earlier step later, steps = earlier ++ step :: later ∧ step.force = true ∧
        (SettingsStep.runAll workDir input tree earlier).Writable workDir step.path place := by
  refine ⟨?_, ?_, ?_⟩
  · intro request path colours houtput
    exact request.run_cases houtput colours workDir input tree
  · intro steps next now
    exact next.run_cases workDir input now
  · intro steps place entry hentry hchanged
    exact SettingsStep.exists_force_of_changes hentry hchanged

/-- A tree with one file in its root. -/
def oneFile : FileTree := { entries := [([['a']], .file (.text ['x']))] }

/-- A request that writes its report over its own script. -/
def overwriteScript : RunRequest := { source := .files [['a']], output := some ['a'] }

theorem commands_all_or_nothing_oneFile :
    (∃ settings scripts place,
      overwriteScript.Ready oneFile [] (.text []) ['a'] settings scripts ∧
        oneFile.Wrote
          (oneFile.perform (overwriteScript.run (FileTree.host [] (.text [])) false)).2
          [] ['a'] place
          (Report.render (settings.format.getD .terminal) false
            (overwriteScript.reports settings scripts))) ∧
      SettingsStep.run ⟨['a'], false⟩ [] (.text []) oneFile = (.error .settingsExist, oneFile) ∧
      ∃ earlier step later, [SettingsStep.mk ['a'] true] = earlier ++ step :: later ∧
        step.force = true ∧
        (SettingsStep.runAll [] (.text []) oneFile earlier).Writable [] step.path [['a']] := by
  have hread : oneFile.read [] ['a'] = .ok ['x'] := by rfl
  have hready : overwriteScript.Ready oneFile [] (.text []) ['a'] _ [⟨['a'], ['x']⟩] :=
    { usesSettings := .nearest rfl rfl
      yields := .files (.cons ⟨rfl, hread⟩ .nil)
      hasCode := by
        intro script hscript
        obtain rfl := List.mem_singleton.mp hscript
        exact ⟨'x', List.mem_cons_self, by decide⟩
      writable := ⟨[['a']], rfl, by decide⟩ }
  obtain ⟨hrun, -, hforce⟩ := commands_all_or_nothing [] (.text []) oneFile
  refine ⟨?_, rfl, ?_⟩
  · rcases hrun overwriteScript ['a'] false rfl with ⟨settings, scripts, place, h, -, hwrote⟩ | h
    · exact ⟨settings, scripts, place, h, hwrote⟩
    · exact absurd ⟨_, _, hready⟩ h.1
  · exact hforce [⟨['a'], true⟩] [['a']] (.file (.text ['x'])) rfl (by decide +kernel)

end LuaUnveil
