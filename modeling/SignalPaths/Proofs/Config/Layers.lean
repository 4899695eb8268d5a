import SignalPaths.Config.Layers
import SignalPaths.Loader
import SignalPaths.Proofs.Computation
import SignalPaths.Proofs.Text

/-!
What a layered configuration comes to. Each value is that of the highest layer that sets it, and
only these values are checked. A file that cannot be used ends the loading with its own error, the
user's one before the project's; only a user's file that cannot be read at all is passed over. What
loading accepts, a loader can be made from.
-/

namespace SignalPaths

attribute [ext] Config

namespace Environment

variable {env : Environment} {name : String}

/-- A variable is set to a text. -/
def Holds (env : Environment) (name text : String) : Prop := env.lookup name = some text.toUTF8

/-- Decimal digits, perhaps after a plus sign, that spell a number. -/
def SpellsCount (text : String) (n : UInt64) : Prop :=
  ∃ digits, (text.toList = digits ∨ text.toList = '+' :: digits) ∧ digits ≠ [] ∧
    (∀ c ∈ digits, c.isDigit = true) ∧ Nat.ofDigitChars 10 digits 0 = n.toNat

/-- What the variables of an environment set, and nothing else. -/
structure Sets (env : Environment) (c : Config) : Prop where
  format : ∀ text, c.format = some text ↔ env.Holds "NETPATHS_LOAD_FORMAT" text
  checkRegisters : ∀ b : Bool, c.checkRegisters = some b ↔
    env.Holds "NETPATHS_LOAD_CHECK_REGISTERS" (if b then "true" else "false")
  allPaths : ∀ b : Bool, c.allPaths = some b ↔
    env.Holds "NETPATHS_SEARCH_ALL_PATHS" (if b then "true" else "false")
  topPrefix : ∀ text, c.topPrefix = some text ↔ env.Holds "NETPATHS_NAMING_TOP_PREFIX" text
  ignoreMarkers : c.ignoreMarkers = []
  minDegree : ∀ n, c.minDegree = some n ↔
    ∃ text, env.Holds "NETPATHS_FAN_OUT_MIN_DEGREE" text ∧ SpellsCount text n

theorem fromUTF8?_eq_some_iff {bytes : ByteArray} {text : String} :
    String.fromUTF8? bytes = some text ↔ bytes = text.toUTF8 := by
  rw [String.fromUTF8?]
  constructor
  · intro read
    split at read
    · next valid =>
      rw [← Option.some.inj read]
      rfl
    · cases read
  · rintro rfl
    rw [String.toUTF8_eq_toByteArray, dif_pos text.isValidUTF8]
    rfl

theorem text?_eq_some_iff {text : String} : env.text? name = some text ↔ env.Holds name text := by
  rw [text?, Option.bind_eq_some_iff, Holds]
  simp only [fromUTF8?_eq_some_iff]
  constructor
  · rintro ⟨bytes, found, rfl⟩
    exact found
  · intro found
    exact ⟨_, found, rfl⟩

theorem bool?_eq_some_iff {b : Bool} :
    env.bool? name = some b ↔ env.Holds name (if b then "true" else "false") := by
  rw [← text?_eq_some_iff, bool?]
  split
  · next known => cases b <;> simp [known]
  · next known => cases b <;> simp [known]
  · next notTrue notFalse =>
    cases b
    · simpa using notFalse
    · simpa using notTrue

theorem readUInt64_eq_some_iff {text : String} {n : UInt64} :
    Text.readUInt64 text = some n ↔ SpellsCount text n := by
  have number : Text.readUInt64 text = some n ↔ Text.readUnsigned text.toList = some n.toNat := by
    unfold Text.readUInt64
    split
    · next m read =>
      rw [read, Option.ite_none_right_eq_some, Option.some_inj, Option.some_inj]
      constructor
      · rintro ⟨small, rfl⟩
        exact (UInt64.toNat_ofNat_of_lt small).symm
      · rintro rfl
        exact ⟨n.toNat_lt_size, UInt64.ofNat_toNat⟩
    · next unread => simp [unread]
  rw [number, Text.readUnsigned_eq_some_iff]
  simp only [Text.readDigits_eq_some_iff, SpellsCount]

theorem sets_config (env : Environment) : env.Sets env.config where
  format _ := text?_eq_some_iff
  checkRegisters _ := bool?_eq_some_iff
  allPaths _ := bool?_eq_some_iff
  topPrefix _ := text?_eq_some_iff
  ignoreMarkers := rfl
  minDegree n := by
    simp only [config, count?, Option.bind_eq_some_iff, text?_eq_some_iff, readUInt64_eq_some_iff]

theorem Sets.unique {c d : Config} (sets : env.Sets c) (also : env.Sets d) : c = d := by
  apply Config.ext
  · exact Option.ext fun text => (sets.format text).trans (also.format text).symm
  · exact Option.ext fun b => (sets.checkRegisters b).trans (also.checkRegisters b).symm
  · exact Option.ext fun b => (sets.allPaths b).trans (also.allPaths b).symm
  · exact Option.ext fun text => (sets.topPrefix text).trans (also.topPrefix text).symm
  · exact sets.ignoreMarkers.trans also.ignoreMarkers.symm
  · exact Option.ext fun n => (sets.minDegree n).trans (also.minDegree n).symm

end Environment

/-- What the command line sets. -/
structure Overrides.Sets (o : Overrides) (c : Config) : Prop where
  format : c.format = o.format
  checkRegisters : c.checkRegisters = none
  allPaths : c.allPaths = o.allPaths
  topPrefix : c.topPrefix = o.topPrefix
  ignoreMarkers : c.ignoreMarkers = []
  minDegree : c.minDegree = o.minDegree

theorem Overrides.sets_toConfig (o : Overrides) : o.Sets o.toConfig :=
  ⟨rfl, rfl, rfl, rfl, rfl, rfl⟩

theorem Overrides.Sets.eq_toConfig {o : Overrides} {c : Config} (sets : o.Sets c) :
    c = o.toConfig :=
  Config.ext sets.format sets.checkRegisters sets.allPaths sets.topPrefix sets.ignoreMarkers
    sets.minDegree

namespace Config

/-- The markers, which only a list that holds some sets. -/
def markers? (c : Config) : Option (List String) :=
  if c.ignoreMarkers.isEmpty then none else some c.ignoreMarkers

/-- Each value is the one of the first layer that sets it. -/
structure FirstSet (layers : List Config) (c : Config) : Prop where
  format : c.format = layers.findSome? Config.format
  checkRegisters : c.checkRegisters = layers.findSome? Config.checkRegisters
  allPaths : c.allPaths = layers.findSome? Config.allPaths
  topPrefix : c.topPrefix = layers.findSome? Config.topPrefix
  ignoreMarkers : c.ignoreMarkers = (layers.findSome? markers?).getD []
  minDegree : c.minDegree = layers.findSome? Config.minDegree

/-- Two layers that differ only where some layer above them sets the value. -/
structure DifferBelow (above : List Config) (a b : Config) : Prop where
  format : (∀ upper ∈ above, upper.format = none) → a.format = b.format
  checkRegisters : (∀ upper ∈ above, upper.checkRegisters = none) →
    a.checkRegisters = b.checkRegisters
  allPaths : (∀ upper ∈ above, upper.allPaths = none) → a.allPaths = b.allPaths
  topPrefix : (∀ upper ∈ above, upper.topPrefix = none) → a.topPrefix = b.topPrefix
  ignoreMarkers : (∀ upper ∈ above, upper.markers? = none) → a.markers? = b.markers?
  minDegree : (∀ upper ∈ above, upper.minDegree = none) → a.minDegree = b.minDegree

/-- Layers, the highest first, that differ only in values that higher ones set. -/
inductive DifferHidden : (above layers others : List Config) → Prop where
  | nil {above : List Config} : DifferHidden above [] []
  | cons {above layers others : List Config} {a b : Config} (first : DifferBelow above a b)
      (rest : DifferHidden (above ++ [a]) layers others) :
      DifferHidden above (a :: layers) (b :: others)

variable {layers others above : List Config} {a b c d : Config}

theorem findSome?_layer {α : Type} (value : Config → Option α) (upper : Config)
    (layers : List Config) :
    (upper :: layers).findSome? value = (value upper <|> layers.findSome? value) := by
  rw [List.findSome?_cons]
  cases value upper <;> rfl

theorem findSome?_below {α : Type} {value : Config → Option α}
    (agree : (∀ upper ∈ above, value upper = none) → value a = value b) :
    (above ++ a :: layers).findSome? value = (above ++ b :: layers).findSome? value := by
  rw [List.findSome?_append, List.findSome?_append]
  cases set : above.findSome? value with
  | some _ => rfl
  | none => rw [findSome?_layer, findSome?_layer, agree (List.findSome?_eq_none_iff.mp set)]

namespace FirstSet

theorem nil : FirstSet [] {} := ⟨rfl, rfl, rfl, rfl, rfl, rfl⟩

theorem onTopOf (first : FirstSet layers c) (upper : Config) :
    FirstSet (upper :: layers) (upper.onTopOf c) where
  format := by rw [findSome?_layer, ← first.format]; rfl
  checkRegisters := by rw [findSome?_layer, ← first.checkRegisters]; rfl
  allPaths := by rw [findSome?_layer, ← first.allPaths]; rfl
  topPrefix := by rw [findSome?_layer, ← first.topPrefix]; rfl
  ignoreMarkers := by
    rw [findSome?_layer, Config.onTopOf, first.ignoreMarkers, markers?]
    cases upper.ignoreMarkers.isEmpty <;> rfl
  minDegree := by rw [findSome?_layer, ← first.minDegree]; rfl

theorem unique (first : FirstSet layers c) (also : FirstSet layers d) : c = d :=
  Config.ext (first.format.trans also.format.symm)
    (first.checkRegisters.trans also.checkRegisters.symm)
    (first.allPaths.trans also.allPaths.symm) (first.topPrefix.trans also.topPrefix.symm)
    (first.ignoreMarkers.trans also.ignoreMarkers.symm)
    (first.minDegree.trans also.minDegree.symm)

theorem differBelow (first : FirstSet (above ++ a :: layers) c) (differ : DifferBelow above a b) :
    FirstSet (above ++ b :: layers) c where
  format := first.format.trans (findSome?_below differ.format)
  checkRegisters := first.checkRegisters.trans (findSome?_below differ.checkRegisters)
  allPaths := first.allPaths.trans (findSome?_below differ.allPaths)
  topPrefix := first.topPrefix.trans (findSome?_below differ.topPrefix)
  ignoreMarkers := first.ignoreMarkers.trans (by rw [findSome?_below differ.ignoreMarkers])
  minDegree := first.minDegree.trans (findSome?_below differ.minDegree)

/-- The lowest layers are exchanged first, so that those above are still the ones that hide them. -/
theorem differHidden (differ : DifferHidden above layers others)
    (first : FirstSet (above ++ layers) c) : FirstSet (above ++ others) c := by
  induction differ with
  | nil => exact first
  | cons differ _ ih =>
    rw [List.append_cons] at first
    have lower := ih first
    rw [← List.append_cons] at lower
    exact lower.differBelow differ

end FirstSet

/-- What there is at the place of a configuration file. -/
inductive Content where
  | absent | unreadable | invalid
  | holds (c : Config)
  deriving DecidableEq

/-- The layer that a file makes. -/
def Content.layer : Content → Config
  | holds c => c
  | _ => {}

def content : File → Content
  | .absent => .absent
  | .directory => .unreadable
  | .bytes bytes =>
    match String.fromUTF8? bytes with
    | none => .unreadable
    | some text =>
      match parse? text with
      | none => .invalid
      | some c => .holds c

variable {file : File} {path : FilePath}

/-- All that the readers of files can meet. -/
theorem content_cases (file : File) :
    (file.isPresent = false ∧ content file = .absent) ∨
    (file.isPresent = true ∧ (∃ reason, file.readText = .error reason) ∧
      content file = .unreadable) ∨
    (file.isPresent = true ∧ ∃ text, file.readText = .ok text ∧
      ((parse? text = none ∧ content file = .invalid) ∨
        ∃ c, parse? text = some c ∧ content file = .holds c)) := by
  cases file with
  | absent => exact .inl ⟨rfl, rfl⟩
  | directory => exact .inr (.inl ⟨rfl, ⟨_, rfl⟩, rfl⟩)
  | bytes bytes =>
    cases decoded : String.fromUTF8? bytes with
    | none => exact .inr (.inl ⟨rfl, ⟨.notUtf8, by simp [File.readText, decoded]⟩,
        by simp [content, decoded]⟩)
    | some text =>
      refine .inr (.inr ⟨rfl, text, by simp [File.readText, decoded], ?_⟩)
      cases parsed : parse? text with
      | none => exact .inl ⟨rfl, by simp [content, decoded, parsed]⟩
      | some c => exact .inr ⟨c, rfl, by simp [content, decoded, parsed]⟩

theorem ofUserFile_invalid (bad : content file = .invalid) : (ofUserFile path file).result =
    .error (.unparsable path.display "invalid TOML in user config") := by
  rcases content_cases file with ⟨_, known⟩ | ⟨_, _, known⟩ | ⟨present, text, read, found⟩
  · simp [known] at bad
  · simp [known] at bad
  · rcases found with ⟨parsed, _⟩ | ⟨c, _, known⟩
    · simp [ofUserFile, present, read, parsed]
    · simp [known] at bad

theorem ofUserFile_usable (fine : content file ≠ .invalid) :
    (ofUserFile path file).result = .ok (content file).layer := by
  rcases content_cases file with ⟨missing, known⟩ | ⟨present, ⟨reason, read⟩, known⟩ |
    ⟨present, text, read, found⟩
  · simp [ofUserFile, missing, known, Content.layer]
  · simp [ofUserFile, present, read, known, Content.layer]
  · rcases found with ⟨_, known⟩ | ⟨c, parsed, known⟩
    · exact absurd known fine
    · simp [ofUserFile, present, read, parsed, known, Content.layer]

theorem ofProjectFile_unreadable (bad : content file = .unreadable) :
    ofProjectFile path file = .error (.fileNotFound path.display) := by
  rcases content_cases file with ⟨_, known⟩ | ⟨present, ⟨reason, read⟩, _⟩ | ⟨_, _, _, found⟩
  · simp [known] at bad
  · simp [ofProjectFile, present, read]
  · rcases found with ⟨_, known⟩ | ⟨c, _, known⟩
    · simp [known] at bad
    · simp [known] at bad

theorem ofProjectFile_invalid (bad : content file = .invalid) :
    ofProjectFile path file = .error (.unparsable path.display unspecifiedDetail) := by
  rcases content_cases file with ⟨_, known⟩ | ⟨_, _, known⟩ | ⟨present, text, read, found⟩
  · simp [known] at bad
  · simp [known] at bad
  · rcases found with ⟨parsed, _⟩ | ⟨c, _, known⟩
    · simp [ofProjectFile, present, read, parsed]
    · simp [known] at bad

theorem ofProjectFile_usable (readable : content file ≠ .unreadable)
    (fine : content file ≠ .invalid) : ofProjectFile path file = .ok (content file).layer := by
  rcases content_cases file with ⟨missing, known⟩ | ⟨_, _, known⟩ | ⟨present, text, read, found⟩
  · simp [ofProjectFile, missing, known, Content.layer]
  · exact absurd known readable
  · rcases found with ⟨_, known⟩ | ⟨c, parsed, known⟩
    · exact absurd known fine
    · simp [ofProjectFile, present, read, parsed, known, Content.layer]

end Config

namespace Environment

variable {env : Environment} {files : FilePath → File} {home : FilePath}

/-- A home is made of the bytes of one variable, or of another one where the first is not set. -/
inductive Home (env : Environment) : FilePath → Prop where
  | first {bytes : ByteArray} (set : env.lookup "HOME" = some bytes) : Home env (.ofBytes bytes)
  | second {bytes : ByteArray} (unset : env.lookup "HOME" = none)
      (set : env.lookup "USERPROFILE" = some bytes) : Home env (.ofBytes bytes)

theorem home?_eq_some_iff : env.home? = some home ↔ env.Home home := by
  rw [home?]
  constructor
  · intro found
    cases first : env.lookup "HOME" with
    | some bytes =>
      rw [first] at found
      exact Option.some.inj found ▸ .first first
    | none =>
      cases second : env.lookup "USERPROFILE" with
      | some bytes =>
        rw [first, second] at found
        exact Option.some.inj found ▸ .second first second
      | none => simp [first, second] at found
  · intro found
    cases found with
    | first set => rw [set]; rfl
    | second unset set => rw [unset, set]; rfl

/-- What there is at the place of the user's file. Without a home there is no such place. -/
def userContent (env : Environment) (files : FilePath → File) : Config.Content :=
  match env.lookup "HOME", env.lookup "USERPROFILE" with
  | some home, _ => Config.content (files (Config.userFile (.ofBytes home)))
  | none, some home => Config.content (files (Config.userFile (.ofBytes home)))
  | none, none => .absent

theorem userContent_of_home (found : env.home? = some home) :
    env.userContent files = Config.content (files (Config.userFile home)) := by
  cases home?_eq_some_iff.mp found with
  | first set => rw [userContent, set]
  | second unset set => rw [userContent, unset, set]

theorem userContent_of_homeless (homeless : env.home? = none) :
    env.userContent files = .absent := by
  rw [home?, Option.map_eq_none_iff] at homeless
  cases first : env.lookup "HOME" with
  | some bytes => simp [first] at homeless
  | none =>
    rw [first] at homeless
    rw [userContent, first, show env.lookup "USERPROFILE" = none from homeless]

end Environment

namespace Config

/-- The layers of a project whose files can be used, the highest first. -/
inductive Stack (files : FilePath → File) (env : Environment) (root : FilePath)
    (overrides : Overrides) : List Config → Prop where
  | mk {commandLine environment : Config} (set : overrides.Sets commandLine)
      (named : env.Sets environment) (sound : env.userContent files ≠ .invalid)
      (readable : content (files (projectFile root)) ≠ .unreadable)
      (valid : content (files (projectFile root)) ≠ .invalid) :
      Stack files env root overrides [commandLine, environment,
        (content (files (projectFile root))).layer, (env.userContent files).layer]

variable {files : FilePath → File} {env : Environment} {root : FilePath} {overrides : Overrides}
  {layers : List Config} {c : Config}

theorem load_userInvalid (bad : env.userContent files = .invalid) :
    ∃ home, env.Home home ∧ (load files env root overrides).result =
      .error (.unparsable (userFile home).display "invalid TOML in user config") := by
  cases found : env.home? with
  | none =>
    rw [Environment.userContent_of_homeless found] at bad
    cases bad
  | some home =>
    rw [Environment.userContent_of_home found] at bad
    refine ⟨home, Environment.home?_eq_some_iff.mp found, ?_⟩
    simp [load, found, ofUserFile_invalid bad]

theorem load_userUsable (sound : env.userContent files ≠ .invalid) :
    (load files env root overrides).result =
      ofProjectFile (projectFile root) (files (projectFile root)) >>= fun project =>
        let c := overrides.toConfig.onTopOf
          (env.config.onTopOf (project.onTopOf (env.userContent files).layer))
        c.validate.map fun _ => c := by
  cases found : env.home? with
  | none =>
    rw [Environment.userContent_of_homeless found]
    simp only [load, found, Traced.result_bind, Traced.ok_bind, Traced.result_ofExcept,
      Traced.result_pure]
    rfl
  | some home =>
    rw [Environment.userContent_of_home found] at sound ⊢
    simp only [load, found, Traced.result_bind, ofUserFile_usable sound, Traced.ok_bind,
      Traced.result_ofExcept, Traced.result_pure]
    rfl

theorem firstSet_layers (commandLine environment project user : Config) :
    FirstSet [commandLine, environment, project, user]
      (commandLine.onTopOf (environment.onTopOf (project.onTopOf user))) := by
  have lowest : user.onTopOf {} = user := by
    apply Config.ext <;> simp [onTopOf]
  have first := (((FirstSet.nil.onTopOf user).onTopOf project).onTopOf environment).onTopOf
    commandLine
  rwa [lowest] at first

theorem Stack.load_result (stack : Stack files env root overrides layers)
    (first : FirstSet layers c) :
    (load files env root overrides).result = c.validate.map fun _ => c := by
  obtain ⟨set, named, sound, readable, valid⟩ := stack
  rw [set.eq_toConfig, named.unique env.sets_config] at first
  rw [load_userUsable sound, ofProjectFile_usable readable valid,
    first.unique (firstSet_layers _ _ _ _)]
  rfl

theorem validate_of_passed {d : Config} (passed : (d.validate.map fun _ => d) = .ok c) :
    c.validate = .ok () := by
  cases checked : d.validate with
  | error e => simp [checked, Except.map] at passed
  | ok _ =>
    rw [checked] at passed
    exact Except.ok.inj passed ▸ checked

theorem validate_of_load (loaded : (load files env root overrides).result = .ok c) :
    c.validate = .ok () := by
  by_cases bad : env.userContent files = .invalid
  · obtain ⟨_, _, failed⟩ := load_userInvalid bad
    rw [failed] at loaded
    cases loaded
  · rw [load_userUsable bad] at loaded
    obtain ⟨project, _, passed⟩ := except_bind_ok loaded
    exact validate_of_passed passed

theorem format_mem_of_validate {format : String} (valid : c.validate = .ok ())
    (set : c.format = some format) : format ∈ formats := by
  obtain ⟨_, checked, _⟩ := except_bind_ok valid
  rw [checkFormat, set] at checked
  by_contra unknown
  simp [unknown] at checked

theorem ofName_of_mem {name : String} (known : name ∈ formats) :
    ∃ format, Format.ofName name = .ok format := by
  have dot : "dot".toLower = "dot" := by decide +kernel
  have json : "json".toLower = "json" := by decide +kernel
  rcases List.mem_pair.mp known with rfl | rfl
  · exact ⟨.dot, by rw [Format.ofName, dot]; rfl⟩
  · exact ⟨.json, by rw [Format.ofName, json]; rfl⟩

theorem exists_loader (valid : c.validate = .ok ()) : ∃ loader, Loader.ofConfig c = .ok loader := by
  unfold Loader.ofConfig
  cases set : c.format with
  | none => exact ⟨_, rfl⟩
  | some name =>
    obtain ⟨format, named⟩ := ofName_of_mem (format_mem_of_validate valid set)
    rw [Option.mapM_some, named]
    exact ⟨_, rfl⟩

/-- However the files, the variables and the command line are, loading ends with the error of a
user's file that is invalid; else with that of a project's file that cannot be read or is invalid;
else it takes each value from the highest layer that sets it, and gives the outcome if that passes
the check, or the error of the check. A user's file that cannot be read is as good as none, values
that higher layers set do not matter, and there is a loader for every configuration that comes
out. -/
theorem load_layered (files : FilePath → File) (env : Environment) (root : FilePath)
    (overrides : Overrides) :
    let user := env.userContent files
    let project := content (files (projectFile root))
    let result := (load files env root overrides).result
    (user = .invalid → ∃ home, env.Home home ∧
      result = .error (.unparsable (userFile home).display "invalid TOML in user config")) ∧
    (user ≠ .invalid → project = .unreadable →
      result = .error (.fileNotFound (projectFile root).display)) ∧
    (user ≠ .invalid → project = .invalid →
      result = .error (.unparsable (projectFile root).display unspecifiedDetail)) ∧
    (user ≠ .invalid → project ≠ .unreadable → project ≠ .invalid →
      ∃ layers c, Stack files env root overrides layers ∧ FirstSet layers c ∧
        result = c.validate.map fun _ => c) ∧
    (user = .unreadable → ∀ others : FilePath → File, env.userContent others = .absent →
      others (projectFile root) = files (projectFile root) →
      (load others env root overrides).result = result) ∧
    (∀ (others : FilePath → File) (otherwise : Environment) (layers lower : List Config),
      Stack files env root overrides layers → Stack others otherwise root overrides lower →
      DifferHidden [] layers lower → (load others otherwise root overrides).result = result) ∧
    (∀ c, result = .ok c → ∃ loader, Loader.ofConfig c = .ok loader) := by
  intro user project result
  have stacked (sound : user ≠ .invalid) (readable : project ≠ .unreadable)
      (valid : project ≠ .invalid) : ∃ layers c, Stack files env root overrides layers ∧
        FirstSet layers c ∧ result = c.validate.map fun _ => c := by
    have stack := Stack.mk overrides.sets_toConfig env.sets_config sound readable valid
    have first := firstSet_layers overrides.toConfig env.config project.layer user.layer
    exact ⟨_, _, stack, first, stack.load_result first⟩
  refine ⟨load_userInvalid, ?_, ?_, stacked, ?_, ?_, ?_⟩
  · intro sound bad
    exact (load_userUsable sound).trans (by rw [ofProjectFile_unreadable bad]; rfl)
  · intro sound bad
    exact (load_userUsable sound).trans (by rw [ofProjectFile_invalid bad]; rfl)
  · intro unreadable others absent same
    have sound : user ≠ .invalid := by simp [unreadable]
    have fine : env.userContent others ≠ .invalid := by simp [absent]
    have layer : (env.userContent others).layer = user.layer := by
      simp [absent, unreadable, Content.layer]
    exact (load_userUsable fine).trans (by rw [same, layer]; exact (load_userUsable sound).symm)
  · intro others otherwise layers lower stack below differ
    obtain ⟨c, first⟩ : ∃ c, FirstSet layers c := by
      obtain ⟨_, _, _, _, _⟩ := stack
      exact ⟨_, firstSet_layers _ _ _ _⟩
    have also : FirstSet lower c := FirstSet.differHidden differ first
    exact (below.load_result also).trans (stack.load_result first).symm
  · intro c loaded
    exact exists_loader (validate_of_load loaded)

/-- A home whose last byte is that of no text. -/
def oddHome : ByteArray := ⟨#[0x2F, 0x68, 0xFF]⟩

def homeOnly : Environment := [("HOME", oddHome)]

def chipRoot : FilePath := .ofText "chip"

/-- The user's file holds a text, and the project's one sets a format. -/
def layeredFiles (text : String) (path : FilePath) : File :=
  if path = userFile (.ofBytes oddHome) then .ofText text
  else if path = projectFile chipRoot then .ofText "[load]\nformat = \"dot\"\n"
  else .absent

/-- The user's format, which no loader knows, lies below that of the project. -/
def shadowedFiles : FilePath → File := layeredFiles "[load]\nformat = \"xml\"\n"

def brokenFiles : FilePath → File := layeredFiles "[load"

/-- A directory stands in the place of the project's file. -/
def blockedFiles (path : FilePath) : File :=
  if path = projectFile chipRoot then .directory else .absent

theorem load_layered_shadowed :
    homeOnly.userContent shadowedFiles = .holds { format := some "xml" } ∧
    content (shadowedFiles (projectFile chipRoot)) = .holds { format := some "dot" } ∧
    (∃ c, (load shadowedFiles homeOnly chipRoot {}).result = .ok c ∧ c.format = some "dot" ∧
      ∃ loader, Loader.ofConfig c = .ok loader) ∧
    homeOnly.userContent brokenFiles = .invalid ∧
    (load brokenFiles homeOnly chipRoot {}).result =
      .error (.unparsable "/h\uFFFD/.netpaths/config.toml" "invalid TOML in user config") ∧
    homeOnly.userContent blockedFiles = .absent ∧
    content (blockedFiles (projectFile chipRoot)) = .unreadable ∧
    (load blockedFiles homeOnly chipRoot {}).result =
      .error (.fileNotFound "chip/netpaths.toml") := by
  have user : homeOnly.userContent shadowedFiles = .holds { format := some "xml" } := by
    decide +kernel
  have project : content (shadowedFiles (projectFile chipRoot)) =
      .holds { format := some "dot" } := by
    decide +kernel
  obtain ⟨_, _, _, resolved, _, _, loaders⟩ := load_layered shadowedFiles homeOnly chipRoot {}
  obtain ⟨layers, c, stack, first, outcome⟩ :=
    resolved (by simp [user]) (by simp [project]) (by simp [project])
  obtain ⟨set, named, _, _, _⟩ := stack
  rw [user, project, set.eq_toConfig, named.unique homeOnly.sets_config] at first
  have same := first.unique (firstSet_layers _ _ _ _)
  have loaded : (load shadowedFiles homeOnly chipRoot {}).result = .ok c := by
    rw [outcome, same]
    rfl
  have broken : homeOnly.userContent brokenFiles = .invalid := by decide +kernel
  obtain ⟨home, found, failed⟩ := (load_layered brokenFiles homeOnly chipRoot {}).1 broken
  have only : home = .ofBytes oddHome :=
    Option.some.inj ((Environment.home?_eq_some_iff.mpr found).symm.trans rfl)
  have shown : (userFile (.ofBytes oddHome)).display = "/h\uFFFD/.netpaths/config.toml" := by
    decide +kernel
  rw [only, shown] at failed
  have nowhere : homeOnly.userContent blockedFiles = .absent := by decide +kernel
  have blocked : content (blockedFiles (projectFile chipRoot)) = .unreadable := by decide +kernel
  have missed := (load_layered blockedFiles homeOnly chipRoot {}).2.1 (by simp [nowhere]) blocked
  have place : projectFile chipRoot = .ofText "chip/netpaths.toml" := by decide +kernel
  rw [place, FilePath.display_ofText] at missed
  exact ⟨user, project, ⟨c, loaded, by rw [same]; rfl, loaders c loaded⟩, broken, failed, nowhere,
    blocked, missed⟩

end Config

end SignalPaths
