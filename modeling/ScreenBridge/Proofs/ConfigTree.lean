/-
# The tree of settings

The tree of settings is a plain one if the sizes in it are signed words, and otherwise
one of its numbers is too large (`Config.plain_tree`, `Config.wide_tree`). Whatever holds
the tree is read as the settings. If tables and fields were cut out of it, what is left
still has its value and everything else is standard (`Config.ofEntries_cut`).

Key definitions: `Config.Writable`, `Config.reset`, `Config.Keeps`.
Key theorems: `Config.plain_tree`, `Config.wide_tree`, `Config.Keeps.setting`,
`Config.readAliasList_of_holds`, `Config.ofEntries_cut`, `Config.reset_whole`.
-/
import ScreenBridge.Config.Reader
import ScreenBridge.Config.Writer
import ScreenBridge.Proofs.Toml.Faithful

namespace ScreenBridge

theorem Key.ofExactName?_name (key : Key) : Key.ofExactName? key.name = some key := by
  cases key <;> decide +kernel

namespace Config

open Toml

variable {config : Config} {c : Cut}

/-! ### What is written -/

/-- The sizes and the length of a tick are signed words of 64 bits. -/
structure Writable (config : Config) : Prop where
  width : config.segment.width.toNat ≤ 0x7fffffffffffffff
  height : config.segment.height.toNat ≤ 0x7fffffffffffffff
  tickMs : config.cadence.tickMs.toNat ≤ 0x7fffffffffffffff

theorem simple_number {n : ℕ} (h : n ≤ 0x7fffffffffffffff) : (Tree.number n).Simple :=
  .number (Nat.lt_succ_of_le h)

theorem simple_word32 (w : UInt32) : (Tree.number w.toNat).Simple :=
  simple_number (by have := w.toNat_lt; omega)

theorem simple_byte (b : UInt8) : (Tree.number b.toNat).Simple :=
  simple_number (by have := b.toNat_lt; omega)

theorem group_aliases (as : List Alias) :
    Tree.Group (.table [("aliases", .list (as.map aliasTree))]) := by
  cases as with
  | nil =>
    refine .fields ⟨by simp, ?_⟩
    rw [List.forall_mem_singleton]
    exact ⟨by decide, .none⟩
  | cons a as =>
    -- the list of tables as `Tree.Group` wants it, each given by its fields
    have htables : (a :: as).map aliasTree = ((a :: as).map fun b =>
        [("key", Tree.text b.key.name), ("row", .number b.row.toNat),
          ("col", .number b.col.toNat)]).map Tree.table := by
      rw [List.map_map]
      rfl
    rw [htables]
    refine .elements (by decide) (by simp) fun fields hfields => ?_
    obtain ⟨b, -, rfl⟩ := List.mem_map.mp hfields
    refine ⟨by simp, ?_⟩
    simp only [List.forall_mem_cons]
    exact ⟨⟨by decide, .text _⟩, ⟨by decide, simple_byte b.row⟩, ⟨by decide, simple_byte b.col⟩,
      by simp⟩

/-- **The settings are a plain tree** if their sizes are signed words. -/
theorem plain_tree (h : config.Writable) : config.tree.Plain := by
  refine .table (by simp [groups]) ?_
  simp only [groups, List.forall_mem_cons]
  refine ⟨⟨by decide, .fields ⟨by simp, ?_⟩⟩, ⟨by decide, .fields ⟨by simp, ?_⟩⟩,
    ⟨by decide, .fields ⟨by simp, ?_⟩⟩, ⟨by decide, group_aliases config.aliases⟩,
    ⟨by decide, .fields ⟨by simp, ?_⟩⟩, ⟨by decide, .fields ⟨by simp, ?_⟩⟩, by simp⟩ <;>
    simp only [List.forall_mem_cons]
  · exact ⟨⟨by decide, simple_word32 _⟩, ⟨by decide, simple_number h.width⟩,
      ⟨by decide, simple_number h.height⟩, ⟨by decide, .flag _⟩, by simp⟩
  · exact ⟨⟨by decide, simple_number h.tickMs⟩, ⟨by decide, simple_word32 _⟩, by simp⟩
  · exact ⟨⟨by decide, .text _⟩, by simp⟩
  · exact ⟨⟨by decide, .flag _⟩, ⟨by decide, simple_byte _⟩, by simp⟩
  · exact ⟨⟨by decide, .text _⟩, by simp⟩

/-- **A number of the tree is too large** if one of the sizes is no signed word. -/
theorem wide_tree (h : ¬ config.Writable) : config.tree.Wide := by
  have hsome : Text.signedBound ≤ config.segment.width.toNat ∨
      Text.signedBound ≤ config.segment.height.toNat ∨
        Text.signedBound ≤ config.cadence.tickMs.toNat := by
    by_contra hnone
    simp only [not_or, Text.signedBound] at hnone
    exact h ⟨by omega, by omega, by omega⟩
  rcases hsome with hwidth | hheight | htick
  · exact .table (.head _) (.table (.tail _ (.head _)) (.number hwidth))
  · exact .table (.head _) (.table (.tail _ (.tail _ (.head _))) (.number hheight))
  · exact .table (.tail _ (.head _)) (.table (.head _) (.number htick))

/-! ### Reading single settings -/

theorem readWord_integer {bits n : ℕ} (h : n ≤ Text.wordMax bits) :
    readWord bits (.integer n) = some n := by
  rw [readWord, if_pos ⟨by omega, by exact_mod_cast h⟩, Int.toNat_natCast]

theorem readWord64_of_holds {v : Value} {w : UInt64} (h : Holds v (.number w.toNat)) :
    readWord64 v = some w := by
  cases h
  rw [readWord64, readWord_integer (Nat.le_pred_of_lt w.toNat_lt), Option.map_some]
  exact congrArg some (UInt64.ofNat_toNat (x := w))

theorem readWord32_of_holds {v : Value} {w : UInt32} (h : Holds v (.number w.toNat)) :
    readWord32 v = some w := by
  cases h
  rw [readWord32, readWord_integer (Nat.le_pred_of_lt w.toNat_lt), Option.map_some]
  exact congrArg some (UInt32.ofNat_toNat (x := w))

theorem readByte_of_holds {v : Value} {b : UInt8} (h : Holds v (.number b.toNat)) :
    readByte v = some b := by
  cases h
  rw [readByte, readWord_integer (Nat.le_pred_of_lt b.toNat_lt), Option.map_some]
  exact congrArg some (UInt8.ofNat_toNat (x := b))

theorem readFlag_of_holds {v : Value} {b : Bool} (h : Holds v (.flag b)) :
    readFlag v = some b := by
  cases h
  rfl

theorem readText_of_holds {v : Value} {s : String} (h : Holds v (.text s)) :
    readText v = some s := by
  cases h
  rfl

theorem readKey_of_holds {v : Value} {key : Key} (h : Holds v (.text key.name)) :
    readKey v = some key := by
  cases h
  exact Key.ofExactName?_name key

/-! ### Settings by their names -/

section Named

variable {α : Type} {values : Entries} {fields : List (String × Tree)} {t : Tree}
  {read : Value → Option α} {value : α} {missing : Option α}

theorem setting_of_held {name : String} (h : Option.Rel Holds (values.lookup name) (some t))
    (hread : ∀ {v}, Holds v t → read v = some value) (position : ℕ) :
    (Group.named values).setting position name read missing = some value := by
  unfold Group.setting Group.find?
  rcases hfound : values.lookup name with _ | v <;> rw [hfound] at h
  · cases h
  · obtain ⟨hv⟩ := h
    simp only [hfound]
    exact hread hv

theorem setting_of_missing {name : String}
    (h : Option.Rel Holds (values.lookup name) (none : Option Tree)) (position : ℕ) :
    (Group.named values).setting position name read missing = missing := by
  unfold Group.setting Group.find?
  rcases hfound : values.lookup name with _ | v <;> rw [hfound] at h
  · simp only [hfound]
  · cases h

/-- The values hold the fields that are kept. -/
def Keeps (keep : String → Bool) (fields : List (String × Tree)) (values : Entries) : Prop :=
  ∀ name, Option.Rel Holds (values.lookup name)
    ((fields.filter fun field => keep field.1).lookup name)

/-- **A field that is kept counts**, and for another what stands for it. -/
theorem Keeps.setting {keep : String → Bool} (h : Keeps keep fields values) (name : String)
    (hfield : fields.lookup name = some t) (hread : ∀ {v}, Holds v t → read v = some value)
    (position : ℕ) (absent : α) :
    (Group.named values).setting position name read absent =
      some (if keep name then value else absent) := by
  have hrel := h name
  rw [lookup_filter, hfield] at hrel
  by_cases hkeep : keep name = true
  · rw [if_pos hkeep] at hrel ⊢
    exact setting_of_held hrel hread position
  · rw [if_neg hkeep] at hrel ⊢
    exact setting_of_missing hrel position

end Named

/-! ### Aliases -/

theorem readAlias_of_holds {v : Value} {a : Alias} (h : Holds v (aliasTree a)) :
    readAlias v = some a := by
  cases h with
  | @table kind values entries h =>
    have hkey : (Group.named values).setting 0 "key" readKey none = some a.key :=
      setting_of_held (h "key") readKey_of_holds 0
    have hrow : (Group.named values).setting 1 "row" readByte none = some a.row :=
      setting_of_held (h "row") readByte_of_holds 1
    have hcol : (Group.named values).setting 2 "col" readByte none = some a.col :=
      setting_of_held (h "col") readByte_of_holds 2
    simp only [readAlias, Group.ofValue?, Option.bind_eq_bind, Option.bind_some, hkey, hrow, hcol]
    rfl

theorem mapM_readAlias : ∀ {as : List Alias} {values : List Value},
    List.Forall₂ Holds values (as.map aliasTree) → values.mapM readAlias = some as
  | [], _, .nil => rfl
  | a :: as, v :: values, .cons hv hvalues => by
    rw [List.mapM_cons, readAlias_of_holds hv, mapM_readAlias hvalues]
    rfl

/-- **A list of aliases is read**, whether it is an array or stands in tables of its
own. -/
theorem readAliasList_of_holds {v : Value} {as : List Alias}
    (h : Holds v (.list (as.map aliasTree))) : readAliasList v = some as := by
  cases h with
  | list hvalues => exact mapM_readAlias hvalues
  | tables helements =>
    have hread := mapM_readAlias helements
    rw [List.mapM_map] at hread
    exact hread

/-! ### What is left of settings -/

/-- The settings of which only those that are kept have their value; all others are the
standard ones. -/
def reset (config : Config) (c : Cut) : Config where
  segment :=
    { key := pick "segment" "key" config.segment.key standard.segment.key
      width := pick "segment" "width" config.segment.width standard.segment.width
      height := pick "segment" "height" config.segment.height standard.segment.height
      create := pick "segment" "create" config.segment.create standard.segment.create }
  cadence :=
    { tickMs := pick "scheduler" "tick_ms" config.cadence.tickMs standard.cadence.tickMs
      divisor := pick "scheduler" "redraw_divisor" config.cadence.divisor
        standard.cadence.divisor }
  snapshotPath := pick "render" "snapshot_path" config.snapshotPath standard.snapshotPath
  aliases := pick "keyboard" "aliases" config.aliases standard.aliases
  joystick :=
    { enabled := pick "joystick" "enabled" config.joystick.enabled standard.joystick.enabled
      port := pick "joystick" "port" config.joystick.port standard.joystick.port }
  logLevel := pick "logging" "log_level" config.logLevel standard.logLevel
where
  pick {α : Type} (key field : String) (value absent : α) : α :=
    if c.tables key then if c.fields key field then value else absent else absent

/-- Where nothing is cut out, all settings are left. -/
theorem reset_whole (config : Config) : config.reset .whole = config := rfl

section Left

variable {root : Entries}
  (hroot : ∀ key, Option.Rel Holds (root.lookup key) (if c.tables key then
    (config.groups.lookup key).map (Tree.keepFields (c.fields key)) else none))

include hroot

/-- **A group of settings is read** from what is left of its table, and is standard if
nothing is. -/
theorem setting_group {α : Type} {key : String} {fields : List (String × Tree)}
    {read : Value → Option α} {value absent : α}
    (hgroup : config.groups.lookup key = some (.table fields))
    (hread : c.tables key = true → ∀ kind values, Keeps (c.fields key) fields values →
      read (.table kind values) = some value)
    (habsent : c.tables key = false → value = absent) (position : ℕ) :
    (Group.named root).setting position key read absent = some value := by
  have hrel := hroot key
  rw [hgroup] at hrel
  by_cases htable : c.tables key = true
  · rw [if_pos htable] at hrel
    refine setting_of_held hrel (fun hv => ?_) position
    cases hv with
    | table hfields => exact hread htable _ _ hfields
  · rw [if_neg htable] at hrel
    rw [habsent (by simpa using htable)]
    exact setting_of_missing hrel position

theorem setting_segment : (Group.named root).setting 0 "segment" readSegment standard.segment =
    some (config.reset c).segment := by
  refine setting_group hroot rfl (fun htable kind values hkeeps => ?_)
    (fun hcut => by simp [reset, reset.pick, hcut]) 0
  have hkey := hkeeps.setting "key" rfl readWord32_of_holds 0 standard.segment.key
  have hwidth := hkeeps.setting "width" rfl readWord64_of_holds 1 standard.segment.width
  have hheight := hkeeps.setting "height" rfl readWord64_of_holds 2 standard.segment.height
  have hcreate := hkeeps.setting "create" rfl readFlag_of_holds 3 standard.segment.create
  simp only [readSegment, Group.ofValue?, Option.bind_eq_bind, Option.bind_some, hkey, hwidth,
    hheight, hcreate]
  simp [reset, reset.pick, htable]

theorem setting_cadence : (Group.named root).setting 1 "scheduler" readCadence standard.cadence =
    some (config.reset c).cadence := by
  refine setting_group hroot rfl (fun htable kind values hkeeps => ?_)
    (fun hcut => by simp [reset, reset.pick, hcut]) 1
  have htick := hkeeps.setting "tick_ms" rfl readWord64_of_holds 0 standard.cadence.tickMs
  have hdivisor := hkeeps.setting "redraw_divisor" rfl readWord32_of_holds 1
    standard.cadence.divisor
  simp only [readCadence, Group.ofValue?, Option.bind_eq_bind, Option.bind_some, htick, hdivisor]
  simp [reset, reset.pick, htable]

theorem setting_snapshotPath :
    (Group.named root).setting 2 "render" readSnapshotPath standard.snapshotPath =
      some (config.reset c).snapshotPath := by
  refine setting_group hroot rfl (fun htable kind values hkeeps => ?_)
    (fun hcut => by simp [reset, reset.pick, hcut]) 2
  have hpath := hkeeps.setting "snapshot_path" rfl readText_of_holds 0 standard.snapshotPath
  simp only [readSnapshotPath, Group.ofValue?, Option.bind_eq_bind, Option.bind_some, hpath]
  simp [reset, reset.pick, htable]

theorem setting_aliases : (Group.named root).setting 3 "keyboard" readAliases standard.aliases =
    some (config.reset c).aliases := by
  refine setting_group hroot rfl (fun htable kind values hkeeps => ?_)
    (fun hcut => by simp [reset, reset.pick, hcut]) 3
  have haliases := hkeeps.setting "aliases" rfl readAliasList_of_holds 0 standard.aliases
  simp only [readAliases, Group.ofValue?, Option.bind_eq_bind, Option.bind_some, haliases]
  simp [reset, reset.pick, htable]

theorem setting_joystick : (Group.named root).setting 4 "joystick" readJoystick standard.joystick =
    some (config.reset c).joystick := by
  refine setting_group hroot rfl (fun htable kind values hkeeps => ?_)
    (fun hcut => by simp [reset, reset.pick, hcut]) 4
  have henabled := hkeeps.setting "enabled" rfl readFlag_of_holds 0 standard.joystick.enabled
  have hport := hkeeps.setting "port" rfl readByte_of_holds 1 standard.joystick.port
  simp only [readJoystick, Group.ofValue?, Option.bind_eq_bind, Option.bind_some, henabled, hport]
  simp [reset, reset.pick, htable]

theorem setting_logLevel : (Group.named root).setting 5 "logging" readLogLevel standard.logLevel =
    some (config.reset c).logLevel := by
  refine setting_group hroot rfl (fun htable kind values hkeeps => ?_)
    (fun hcut => by simp [reset, reset.pick, hcut]) 5
  have hlevel := hkeeps.setting "log_level" rfl readText_of_holds 0 standard.logLevel
  simp only [readLogLevel, Group.ofValue?, Option.bind_eq_bind, Option.bind_some, hlevel]
  simp [reset, reset.pick, htable]

end Left

/-! ### All settings -/

/-- **What is left of the settings is read**, and what was cut out is standard. -/
theorem ofEntries_cut {kind : TableKind} {root : Entries}
    (h : Holds (.table kind root) (config.tree.cut c)) :
    ofEntries root = some (config.reset c) := by
  have hroot : ∀ key, Option.Rel Holds (root.lookup key) (if c.tables key then
      (config.groups.lookup key).map (Tree.keepFields (c.fields key)) else none) := by
    intro key
    rw [← lookup_cut]
    cases h with
    | table hentries => exact hentries key
  simp only [ofEntries, Option.bind_eq_bind, setting_segment hroot, setting_cadence hroot,
    setting_snapshotPath hroot, setting_aliases hroot, setting_joystick hroot,
    setting_logLevel hroot, Option.bind_some]
  rfl

end Config
end ScreenBridge
