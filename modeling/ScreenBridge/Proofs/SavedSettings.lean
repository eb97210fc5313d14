/-
# Settings that are saved are loaded again

With a library that is faithful, the document of the settings is read as the settings
(`Config.written`). Saving writes that document behind directories that it only adds, so
loading the same path reads it (`Config.load_save`). What the program prints of its
settings is the same document, so a program that finds it as its file and is told nothing
else has the same settings (`Application.settings_of_read`). Settings that cannot be
written leave every file as it was (`Config.saveAt_of_error`).

Key definitions: `Config.WritablePath`, `Arguments.OverridesNothing`,
`Application.settingsPath?`.
Key theorems: `Config.written`, `Config.load_save`, `Config.saveAt_of_error`,
`Application.launch_printConfig`, `Application.settings_of_read`,
`Config.survives_being_written`.
-/
import ScreenBridge.Application
import ScreenBridge.Config.SystemPath
import ScreenBridge.Proofs.ConfigTree
import ScreenBridge.Proofs.Files
import ScreenBridge.Proofs.Lines
import ScreenBridge.Proofs.Toml.Sections

namespace ScreenBridge
namespace Config

open FileSystem Toml

variable {toml : Toml.Library} {config : Config} {files : FileSystem} {path text : String}

/-! ### Documents -/

theorem ofToml_of_holds {c : Cut} {root : Entries} (hread : toml.read text = some root)
    (hholds : Holds (.table .header root) (config.tree.cut c)) :
    ofToml toml text = .ok (config.reset c) := by
  rw [ofToml, hread, Option.bind_some, ofEntries_cut hholds]

/-- **What is left of the settings is written**, and read again. -/
theorem written (htoml : toml.Faithful) (h : config.Writable) (c : Cut) :
    ∃ text, toml.write (config.tree.cut c) = some text ∧
      ofToml toml text = .ok (config.reset c) := by
  obtain ⟨text, root, hwrite, hread, hholds⟩ := htoml.read_write ((plain_tree h).cut c)
  exact ⟨text, hwrite, ofToml_of_holds hread hholds⟩

theorem ofToml_toToml (htoml : toml.Faithful) (h : config.Writable) :
    ∃ text, config.toToml toml = .ok text ∧ ofToml toml text = .ok config := by
  obtain ⟨text, hwrite, hread⟩ := written htoml h .whole
  rw [Tree.cut_whole] at hwrite
  rw [reset_whole] at hread
  refine ⟨text, ?_, hread⟩
  rw [toToml, hwrite]

theorem toToml_of_not_writable (htoml : toml.Faithful) (h : ¬ config.Writable) :
    config.toToml toml = .error .outOfRange := by
  rw [toToml, htoml.write_wide (wide_tree h)]

/-! ### Files -/

/-- Directories above the path can be made where they are missing, and then the path can
be written. -/
def WritablePath (files : FileSystem) (path : String) : Prop :=
  ∃ made, makeParents files path = (.ok (), made) ∧ ∀ bytes, (made.write path bytes).1 = .ok ()

theorem extends_makeParents (files : FileSystem) (path : String) :
    files.Extends (makeParents files path).2 := by
  unfold makeParents
  rcases Path.parent? path with _ | parent
  · exact extends_refl files
  · have hmade := extends_makeDirectories files parent
    dsimp only
    rcases hdirectories : files.makeDirectories parent with ⟨_ | _, made⟩ <;>
      rw [hdirectories] at hmade <;> exact hmade

theorem load_of_read (h : files.read path = .ok text.toUTF8.data) :
    load toml files path = ofToml toml text := by
  have htext : Text.ofUtf8? text.toUTF8.data.toList = some text := Text.ofUtf8?_utf8 text
  rw [load, h]
  dsimp only
  rw [htext]

/-- **Saved settings are loaded again.** -/
theorem load_save (htext : config.toToml toml = .ok text) (hread : ofToml toml text = .ok config)
    (hpath : WritablePath files path) :
    ∃ saved, save toml files path config = (.ok (), saved) ∧
      load toml saved path = .ok config := by
  obtain ⟨made, hmade, hwrite⟩ := hpath
  have hok := hwrite text.toUTF8.data
  refine ⟨(made.write path text.toUTF8.data).2, ?_, ?_⟩
  · rw [save, hmade]
    dsimp only
    rw [htext]
    dsimp only
    rcases hresult : made.write path text.toUTF8.data with ⟨_ | _, written⟩ <;> rw [hresult] at hok
    cases hok
  · rw [load_of_read (read_write hok), hread]

/-! ### What cannot be written -/

variable {snapshot : List UInt8}

theorem toTomlAt_utf8 (toml : Toml.Library) (config : Config) (s : String) :
    config.toTomlAt toml (Text.utf8 s) =
      ({ config with snapshotPath := s }.toToml toml).mapError .config := by
  rw [toTomlAt, Text.ofUtf8?_utf8]

theorem saveAt_utf8 (toml : Toml.Library) (config : Config) (files : FileSystem)
    (path s : String) :
    config.saveAt toml files path (Text.utf8 s) =
      ((save toml files path { config with snapshotPath := s }).1.mapError .config,
        (save toml files path { config with snapshotPath := s }).2) := by
  rw [saveAt, save, toTomlAt_utf8]
  rcases makeParents files path with ⟨_ | _, made⟩
  · rfl
  · rcases htoml : { config with snapshotPath := s }.toToml toml with _ | text
    · simp only [htoml, Except.mapError]
    · simp only [htoml, Except.mapError]
      rcases made.write path text.toUTF8.data with ⟨_ | _, written⟩ <;> rfl

theorem toTomlAt_of_not_isText (htoml : toml.Faithful) (config : Config)
    (h : ¬ Text.IsText snapshot) :
    (config.Writable → config.toTomlAt toml snapshot = .error .pathNotText) ∧
      (¬ config.Writable → config.toTomlAt toml snapshot = .error (.config .outOfRange)) := by
  rw [toTomlAt, Text.ofUtf8?_eq_none_iff.mpr h]
  refine ⟨fun hwritable => ?_, fun hwide => ?_⟩
  · obtain ⟨text, htext, -⟩ := ofToml_toToml htoml hwritable
    dsimp only
    rw [htext]
  · dsimp only
    rw [toToml_of_not_writable htoml hwide]

/-- **What cannot be written changes no file**: nothing is put where the settings should
go, and what was made on the way are directories. -/
theorem saveAt_of_error {e : WriteError} (h : config.toTomlAt toml snapshot = .error e)
    (files : FileSystem) (path : String) :
    (config.saveAt toml files path snapshot).1 ≠ .ok () ∧
      files.Extends (config.saveAt toml files path snapshot).2 := by
  have hmade := extends_makeParents files path
  unfold saveAt
  rcases hparents : makeParents files path with ⟨_ | _, made⟩ <;> rw [hparents] at hmade
  · exact ⟨nofun, hmade⟩
  · rw [h]
    exact ⟨nofun, hmade⟩

theorem save_of_error {e : ConfigError} (h : config.toToml toml = .error e) (files : FileSystem)
    (path : String) :
    (save toml files path config).1 ≠ .ok () ∧ files.Extends (save toml files path config).2 := by
  have herror : config.toTomlAt toml (Text.utf8 config.snapshotPath) = .error (.config e) := by
    rw [toTomlAt_utf8, h]
    rfl
  obtain ⟨hfail, hextends⟩ := saveAt_of_error herror files path
  rw [saveAt_utf8] at hfail hextends
  refine ⟨fun hok => hfail ?_, hextends⟩
  exact congrArg (Except.mapError WriteError.config) hok

end Config

/-! ### Printed settings -/

/-- The arguments name no setting but the file of them. -/
structure Arguments.OverridesNothing (a : Arguments) : Prop where
  shmKey : a.shmKey = none
  create : a.create = false
  tickMs : a.tickMs = none
  redrawDivisor : a.redrawDivisor = none
  snapshot : a.snapshot = none
  logLevel : a.logLevel = none

namespace Application

variable {toml : Toml.Library} {e : Environment} {files : FileSystem} {a : Arguments}
  {config : Config} {path text : String}

theorem override_eq_self (h : a.OverridesNothing) (config : Config) :
    override a config = config := by
  simp [override, h.shmKey, h.create, h.tickMs, h.redrawDivisor, h.snapshot, h.logLevel]

/-- The file in which the settings are looked for. -/
def settingsPath? (e : Environment) (a : Arguments) : Option String :=
  a.config.or (Config.defaultPath e.configHome e.home).toOption

/-- The settings that hold are those of the file, if nothing else is named. -/
theorem settings_of_read (h : a.OverridesNothing) (hpath : settingsPath? e a = some path)
    (hread : files.read path = .ok text.toUTF8.data) (htext : Config.ofToml toml text = .ok config) :
    settings toml e files a = .ok config := by
  have hload : Config.load toml files path = .ok config := by
    rw [Config.load_of_read hread, htext]
  have hstored : storedSettings toml e files a = .ok config := by
    unfold settingsPath? at hpath
    unfold storedSettings
    rcases hconfig : a.config with _ | named <;> rw [hconfig] at hpath
    · rcases hdefault : Config.defaultPath e.configHome e.home with _ | usual <;>
        rw [hdefault] at hpath
      · cases hpath
      · obtain rfl := Option.some.inj hpath
        dsimp only
        rw [hload]
        rfl
    · obtain rfl := Option.some.inj hpath
      dsimp only
      rw [hload]
      rfl
  rw [settings, hstored]
  exact congrArg Except.ok (override_eq_self h config)

/-- **The program prints its settings** and ends. -/
theorem launch_printConfig {libraries : Libraries} {arguments : List String} {w : World}
    (r : SegmentRefusals) (hrequest : libraries.request e arguments = .ok (.run a))
    (hprint : a.printConfig = true) (hsettings : settings libraries.toml e w.files a = .ok config)
    (htext : config.toToml libraries.toml = .ok text) :
    launch libraries r e arguments w = .ended (.success text) w := by
  rw [launch, hrequest]
  dsimp only
  rw [hsettings]
  dsimp only
  rw [if_pos hprint, htext]

end Application

/-- **Settings survive being written**, with any library that is faithful. If their sizes
are signed words, the document of them is read back as they are: from the text, from the
file into which they are saved, and by a program that finds as its file what another one
printed and is told nothing else. If aliases, fields or tables are dropped from the
document, in writing it or afterwards, what is left of the settings stays and what is
dropped is standard. If a size is larger, or the path of the snapshot is no text, they are
not written, and no file changes. -/
theorem Config.survives_being_written {toml : Toml.Library} (htoml : toml.Faithful)
    (config : Config) :
    (config.Writable →
      (∃ text, config.toToml toml = .ok text ∧ ofToml toml text = .ok config ∧
        (∀ files path, WritablePath files path →
          ∃ saved, save toml files path config = (.ok (), saved) ∧
            load toml saved path = .ok config) ∧
        (∀ request r e arguments w a, request e arguments = .ok (.run a) → a.printConfig = true →
          Application.settings toml e w.files a = .ok config →
          Application.launch ⟨request, toml⟩ r e arguments w = .ended (.success text) w) ∧
        ∀ e files a path, a.OverridesNothing → Application.settingsPath? e a = some path →
          files.read path = .ok text.toUTF8.data →
          Application.settings toml e files a = .ok config) ∧
      ∀ as, as.Sublist config.aliases → ∀ c,
        (∃ text, toml.write ({ config with aliases := as }.tree.cut c) = some text ∧
          ofToml toml text = .ok ({ config with aliases := as }.reset c)) ∧
        ∀ text root, toml.read text = some root →
          Toml.Holds (.table .header root) ({ config with aliases := as }.tree.cut c) →
          ofToml toml text = .ok ({ config with aliases := as }.reset c)) ∧
    (¬ config.Writable →
      config.toToml toml = .error .outOfRange ∧
      ∀ files path, (save toml files path config).1 ≠ .ok () ∧
        ∀ other bytes, files.read other = .ok bytes →
          (save toml files path config).2.read other = .ok bytes) ∧
    (∀ snapshot, ¬ Text.IsText snapshot →
      (config.Writable → config.toTomlAt toml snapshot = .error .pathNotText) ∧
      (¬ config.Writable → config.toTomlAt toml snapshot = .error (.config .outOfRange)) ∧
      ∀ files path, (config.saveAt toml files path snapshot).1 ≠ .ok () ∧
        ∀ other bytes, files.read other = .ok bytes →
          (config.saveAt toml files path snapshot).2.read other = .ok bytes) ∧
    ∀ s, config.toTomlAt toml (Text.utf8 s) =
        ({ config with snapshotPath := s }.toToml toml).mapError .config ∧
      ∀ files path, config.saveAt toml files path (Text.utf8 s) =
        ((save toml files path { config with snapshotPath := s }).1.mapError .config,
          (save toml files path { config with snapshotPath := s }).2) := by
  refine ⟨fun h => ⟨?_, fun as _ c => ?_⟩, fun h => ?_, fun snapshot h => ?_, fun s => ?_⟩
  · obtain ⟨text, htext, hread⟩ := ofToml_toToml htoml h
    exact ⟨text, htext, hread, fun _ _ => load_save htext hread,
      fun _ r _ _ _ _ hrequest hprint hsettings =>
        Application.launch_printConfig r hrequest hprint hsettings htext,
      fun _ _ _ _ hnothing hpath hfile =>
        Application.settings_of_read hnothing hpath hfile hread⟩
  · have hleft : { config with aliases := as }.Writable := ⟨h.width, h.height, h.tickMs⟩
    exact ⟨written htoml hleft c, fun _ _ hread hholds => ofToml_of_holds hread hholds⟩
  · have herror := toToml_of_not_writable htoml h
    refine ⟨herror, fun files path => ?_⟩
    obtain ⟨hfail, hextends⟩ := save_of_error herror files path
    exact ⟨hfail, fun _ _ => FileSystem.read_of_extends hextends⟩
  · obtain ⟨hwritable, hwide⟩ := toTomlAt_of_not_isText htoml config h
    refine ⟨hwritable, hwide, fun files path => ?_⟩
    have herror : ∃ e, config.toTomlAt toml snapshot = .error e := by
      by_cases hconfig : config.Writable
      · exact ⟨_, hwritable hconfig⟩
      · exact ⟨_, hwide hconfig⟩
    obtain ⟨e, herror⟩ := herror
    obtain ⟨hfail, hextends⟩ := saveAt_of_error herror files path
    exact ⟨hfail, fun _ _ => FileSystem.read_of_extends hextends⟩
  · exact ⟨toTomlAt_utf8 toml config s, fun files path => saveAt_utf8 toml config files path s⟩

/-- The standard settings, but for a snapshot path with quotes of both kinds and a line
end. -/
def Config.quoted : Config := { standard with snapshotPath := "it's \"new\"\n.ppm" }

/-- With the library that writes sections, such settings are saved below a directory that
is missing, printed and fed back, and cut down to what is standard; with a width of
`2 ^ 63`, or a byte that is no text for the snapshot path, they are not written. -/
theorem Config.quoted_path_survives :
    (∃ saved, save Toml.library .fresh "a/b.toml" quoted = (.ok (), saved) ∧
      load Toml.library saved "a/b.toml" = .ok quoted) ∧
    (∃ text, Application.launch ⟨Request.parse, Toml.library⟩ .nothing
          ⟨none, none, none, none, none, none⟩
          ["--print-config", "--snapshot", quoted.snapshotPath] ⟨.fresh, .empty⟩ =
        .ended (.success text) ⟨.fresh, .empty⟩ ∧
      Application.settings Toml.library ⟨none, none, none, none, none, none⟩
        (FileSystem.fresh.write "b" text.toUTF8.data).2
        { Arguments.empty with config := some "b" } = .ok quoted) ∧
    (∃ text, Toml.library.write (quoted.tree.cut ⟨(· ∈ ["joystick", "logging"]), fun _ _ => true⟩) =
        some text ∧ ofToml Toml.library text = .ok standard) ∧
    (save Toml.library (FileSystem.fresh.write "b" #[1]).2 "b"
      { quoted with segment := ⟨1, 0x8000000000000000, 1, false⟩ }).2.read "b" = .ok #[1] ∧
    quoted.toTomlAt Toml.library [255] = .error .pathNotText := by
  have hquoted : quoted.Writable := ⟨by decide, by decide, by decide⟩
  obtain ⟨hwritten, -, hbytes, -⟩ := survives_being_written Toml.faithful_library quoted
  obtain ⟨⟨text, -, -, hsave, hprint, hfeed⟩, hleft⟩ := hwritten hquoted
  obtain ⟨-, hwide, -⟩ := survives_being_written Toml.faithful_library
    { quoted with segment := ⟨1, 0x8000000000000000, 1, false⟩ }
  refine ⟨hsave .fresh "a/b.toml" ⟨_, rfl, fun bytes => rfl⟩, ⟨text, ?_, ?_⟩, ?_, ?_, ?_⟩
  · exact hprint _ _ _ _ _
      { Arguments.empty with snapshot := some quoted.snapshotPath, printConfig := true }
      (by decide +kernel) rfl (by decide +kernel)
  · exact hfeed _ _ _ "b" ⟨rfl, rfl, rfl, rfl, rfl, rfl⟩ rfl (FileSystem.read_write rfl)
  · exact (hleft [] (List.Sublist.refl _) _).1
  · exact ((hwide fun h => absurd h.width (by decide)).2 _ _).2 _ _ (FileSystem.read_write rfl)
  · exact (hbytes [255] (Text.ofUtf8?_eq_none_iff.mp (by decide +kernel))).1 hquoted

end ScreenBridge
