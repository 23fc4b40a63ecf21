/-
# Settings one by one

Layers are put over each other as a whole, but every setting is decided on its own: by the
command line if that gives it, else by its variable if that can be used, else by the settings
file if that was accepted, else it is what it is by default. What is wrong in one layer
touches neither the other settings nor the other layers: a variable that cannot be used
counts as absent, and a file that cannot be used gives nothing at all.

What is noted while settings are resolved does not depend on what is decided. A variable
that cannot be used is noted also where the command line would have outvoted it.
-/

import RingTape.Proofs.Command.Primitive
import RingTape.Proofs.Command.Registration
import RingTape.Proofs.Settings.Variables
import RingTape.Proofs.Text.Utf8
import RingTape.Settings.Resolve

namespace RingTape

namespace Setting

/-- What a setting is in the settings in force. -/
def inForce (settings : Settings) : (s : Setting) → s.Value
  | tapeSize => settings.tapeSize
  | cellMode => settings.cellMode
  | output => settings.output
  | extensions => settings.extensions

/-- What a setting is by default. -/
def usual : (s : Setting) → s.Value
  | tapeSize => (30000 : Nat)
  | cellMode => CellMode.unbounded
  | output => OutputFormat.numbers
  | extensions => false

theorem inForce_default (s : Setting) : s.inForce {} = s.usual := by cases s <;> rfl

/-- A layer decides just the settings that it gives. -/
theorem inForce_override (settings : Settings) (o : Overrides) (s : Setting) :
    s.inForce (settings.override o) = (s.given o).getD (s.inForce settings) := by
  cases s <;> rfl

end Setting

namespace Settings

/-! ## The settings file -/

/-- What comes of looking for the settings file. -/
inductive Finding
  | absent
  | refused (message : String)
  | accepted (layer : Overrides)

namespace Finding

/-- The layer that the file gives. One that was refused gives none of its settings. -/
def layer : Finding → Overrides
  | accepted layer => layer
  | _ => {}

/-- What is warned of. -/
def warnings : Finding → List Setting.Warning
  | refused message => [("ignoring config file", [("error", .plain message)])]
  | _ => []

end Finding

/-- The place of the settings file: the one that the environment names, else a certain one in the
directory of settings, for which a slash is put between the two if there is none. -/
inductive Origins.Keeps (o : Origins) : String → Prop
  | named {path : String} (set : o.env "TAPEBF_CONFIG" = some path) : o.Keeps path
  | usual {directory : String} (unset : o.env "TAPEBF_CONFIG" = none)
      (home : o.home = some directory) :
      o.Keeps (directory ++
        if directory = "" ∨ directory.endsWith "/" then "tapebf.toml" else "/tapebf.toml")

/-- The states in which the settings file may be found. No place for it may be known, or there
may be nothing in that place; it may be impossible to read, or its bytes may be the encoding of
no text, or its text no settings file; or it gives a layer. -/
inductive Finds (o : Origins) : Finding → Prop
  | unnamed (unset : o.env "TAPEBF_CONFIG" = none) (homeless : o.home = none) : Finds o .absent
  | missing {path : String} (kept : o.Keeps path) (nothing : o.files.present path = false) :
      Finds o .absent
  | unreadable {path reason : String} (kept : o.Keeps path) (present : o.files.present path)
      (failed : o.files.read path = .error reason) :
      Finds o (.refused ("failed to read " ++ path ++ ": " ++ reason))
  | notText {path : String} {bytes : List UInt8} (kept : o.Keeps path)
      (present : o.files.present path) (held : o.files.read path = .ok bytes)
      (invalid : ∀ text : String, text.toUTF8.data.toList ≠ bytes) :
      Finds o (.refused ("failed to read " ++ path ++ ": " ++ "stream did not contain valid UTF-8"))
  | malformed {path text reason : String} (kept : o.Keeps path) (present : o.files.present path)
      (held : o.files.read path = .ok text.toUTF8.data.toList)
      (rejected : o.layer text = .error reason) :
      Finds o (.refused ("invalid config " ++ path ++ ": " ++ reason))
  | accepted {path text : String} {layer : Overrides} (kept : o.Keeps path)
      (present : o.files.present path) (held : o.files.read path = .ok text.toUTF8.data.toList)
      (read_as : o.layer text = .ok layer) : Finds o (.accepted layer)

variable {o : Origins} {path : String} {finding : Finding}

theorem Origins.Keeps.path_eq (kept : o.Keeps path) : o.path = some path := by
  cases kept with
  | named set => simp only [Origins.path, set]
  | @usual directory unset home =>
    simp only [Origins.path, unset, home, Option.map_some, joinPath]
    split
    · rfl
    · exact congrArg some String.append_assoc

/-- It is found in one of them. -/
theorem exists_finds (o : Origins) : ∃ finding, Finds o finding := by
  have place : (∃ path, o.Keeps path) ∨ o.env "TAPEBF_CONFIG" = none ∧ o.home = none := by
    cases set : o.env "TAPEBF_CONFIG" with
    | some path => exact .inl ⟨path, .named set⟩
    | none =>
      cases home : o.home with
      | some directory => exact .inl ⟨_, .usual set home⟩
      | none => exact .inr ⟨rfl, rfl⟩
  rcases place with ⟨path, kept⟩ | ⟨unset, homeless⟩
  · cases present : o.files.present path with
    | false => exact ⟨_, .missing kept present⟩
    | true =>
      cases held : o.files.read path with
      | error reason => exact ⟨_, .unreadable kept present held⟩
      | ok bytes =>
        cases decoded : Utf8.decode? bytes with
        | none => exact ⟨_, .notText kept present held (Utf8.encode_ne_of_decode? decoded)⟩
        | some text =>
          obtain rfl := Utf8.encode_of_decode? decoded
          cases read_as : o.layer text with
          | error reason => exact ⟨_, .malformed kept present held read_as⟩
          | ok layer => exact ⟨_, .accepted kept present held read_as⟩
  · exact ⟨_, .unnamed unset homeless⟩

/-- A file that is there adds its layer, -/
theorem Origins.file_of_ok {layer : Overrides} (kept : o.Keeps path)
    (present : o.files.present path) (read_as : o.fileLayer path = .ok layer) :
    o.file = (layer, [.fileLoaded path]) := by
  simp only [Origins.file, kept.path_eq, present, read_as, if_true]

/-- or nothing if it has none. -/
theorem Origins.file_of_error {e : ConfigError} (kept : o.Keeps path)
    (present : o.files.present path) (failed : o.fileLayer path = .error e) :
    o.file = ({}, [.fileIgnored e]) := by
  simp only [Origins.file, kept.path_eq, present, failed, if_true]

/-- Of a file that holds a text, the layer is what this is read as. -/
theorem Origins.fileLayer_of_text {text : String}
    (held : o.files.read path = .ok text.toUTF8.data.toList) :
    o.fileLayer path = (o.layer text).mapError (.malformed path) := by
  have whole : o.files.text path = .ok text := by
    have decoded : Utf8.decode? text.toUTF8.data.toList = some text := Utf8.decode?_encode text
    simp only [Files.text, held, decoded]
  simp only [Origins.fileLayer, whole]

/-- What the file adds is known from its state. -/
theorem Finds.file_eq (finds : Finds o finding) :
    o.file.1 = finding.layer ∧
      (o.file.2.filter fun event => event.level = .warn).map Setting.warning =
        finding.warnings := by
  cases finds with
  | unnamed unset homeless =>
    have nowhere : o.path = none := by simp only [Origins.path, unset, homeless, Option.map_none]
    simp only [Origins.file, nowhere]
    exact ⟨rfl, rfl⟩
  | missing kept nothing =>
    simp only [Origins.file, kept.path_eq, nothing]
    exact ⟨rfl, rfl⟩
  | @unreadable path reason kept present failed =>
    have refused : o.fileLayer path = .error (.unreadable path (.unreadable reason)) := by
      simp only [Origins.fileLayer, Files.text, failed]
    rw [Origins.file_of_error kept present refused]
    exact ⟨rfl, rfl⟩
  | @notText path bytes kept present held invalid =>
    have decoded : Utf8.decode? bytes = none :=
      Option.eq_none_iff_forall_ne_some.mpr fun text decoded =>
        invalid text (Utf8.encode_of_decode? decoded)
    have refused : o.fileLayer path = .error (.unreadable path .invalidText) := by
      simp only [Origins.fileLayer, Files.text, held, decoded]
    rw [Origins.file_of_error kept present refused]
    exact ⟨rfl, rfl⟩
  | @malformed path text reason kept present held rejected =>
    have refused : o.fileLayer path = .error (.malformed path reason) := by
      rw [Origins.fileLayer_of_text held, rejected]
      rfl
    rw [Origins.file_of_error kept present refused]
    exact ⟨rfl, rfl⟩
  | @accepted path text layer kept present held read_as =>
    have given : o.fileLayer path = .ok layer := by
      rw [Origins.fileLayer_of_text held, read_as]
      rfl
    rw [Origins.file_of_ok kept present given]
    exact ⟨rfl, rfl⟩

/-- The settings are the layers put over each other, and what is noted of the file comes before
what is noted of the environment. -/
theorem resolve_eq (o : Origins) (overrides : Overrides) :
    resolve o overrides =
      (((({} : Settings).override o.file.1).override o.env.layer.1).override overrides,
        o.file.2 ++ o.env.layer.2) := rfl

/-! ## The interpreter -/

/-- Building fails where the tape cannot be built, and nowhere else. -/
theorem build_of_error {grants : Nat → Bool} {settings : Settings} {e : TapeError}
    (failed : Tape.new grants settings.tapeSize settings.cellMode = .error e) (source : Source)
    (journal : Journal) : settings.build grants source journal = .error (.tape e) := by
  rw [build, failed]

/-- Among the stock commands a name is looked up as it is spelled. -/
theorem lookup_stock (name : Char) :
    [('*', Stock.double.routine), ('/', Stock.halve.routine),
      ('_', Stock.clear.routine)].lookup name = (Stock.ofSymbol? name).map Stock.routine := by
  unfold Stock.ofSymbol?
  split
  · rfl
  · rfl
  · rfl
  · next ne_double ne_halve ne_clear =>
    rw [List.lookup_eq_none_iff.mpr]
    · rfl
    · intro entry member
      simp only [List.mem_cons, List.not_mem_nil, or_false] at member
      rcases member with rfl | rfl | rfl
      · exact bne_iff_ne.mpr ne_double
      · exact bne_iff_ne.mpr ne_halve
      · exact bne_iff_ne.mpr ne_clear

/-- The interpreter that settings ask for: it has the tape, writes to a text sink in the format
of the settings, reads from the source and knows the stock commands if the extensions are
on. -/
structure Equips (settings : Settings) (tape : Tape) (source : Source) (i : Interpreter) :
    Prop where
  tape : i.machine.tape = tape
  sink : i.machine.sink = .toText settings.output none
  source : i.machine.source = source
  resolve : ∀ name, i.registry.resolve name =
    if settings.extensions then (Primitive.ofSymbol? name).map Primitive.routine
    else (Builtin.ofSymbol? name).map Builtin.routine

/-- It is built wherever the tape is. -/
theorem exists_build_of_ok {grants : Nat → Bool} {settings : Settings} {tape : Tape}
    (built : Tape.new grants settings.tapeSize settings.cellMode = .ok tape) (source : Source)
    (journal : Journal) :
    ∃ i, settings.build grants source journal = .ok i ∧ Equips settings tape source i := by
  rw [build, built]
  cases extended : settings.extensions with
  | false =>
    refine ⟨_, rfl, rfl, rfl, rfl, fun name => ?_⟩
    rw [extended, Registry.resolve]
    cases Builtin.ofSymbol? name <;> rfl
  | true =>
    refine ⟨_, rfl, rfl, rfl, rfl, fun name => ?_⟩
    rw [Registry.resolve_eq_or]
    show ((Builtin.ofSymbol? name).map Builtin.routine).or
      ([('*', Stock.double.routine), ('/', Stock.halve.routine),
        ('_', Stock.clear.routine)].lookup name) = _
    rw [extended, Primitive.ofSymbol?, lookup_stock]
    cases Builtin.ofSymbol? name with
    | some b => rfl
    | none =>
      rw [if_pos rfl]
      cases Stock.ofSymbol? name <;> rfl

/-- Every setting is what the command line gives for it, else what its variable means, else what
the settings file gives, else what it is by default, whatever becomes of the others. A file that
was refused leaves all settings as they would be without a file. The warnings are one for such a
file and then one for each variable that is set and means nothing, in the order of the settings,
whether or not the command line decides them. From what is resolved an interpreter can be built
exactly if a tape can. -/
theorem resolve_layered (o : Origins) (overrides : Overrides) :
    let resolved := resolve o overrides
    (∃ finding, Finds o finding) ∧
    (∀ s : Setting, ∃ found complaint, s.Told o.env found complaint) ∧
    (∀ finding, Finds o finding →
      (∀ (s : Setting) found complaint, s.Told o.env found complaint →
        s.inForce resolved.1 =
          (s.given overrides <|> found <|> s.given finding.layer).getD s.usual) ∧
      (∀ message, finding = .refused message → resolved.1 =
        (resolve { o with files := { o.files with present := fun _ => false } } overrides).1) ∧
      ∀ complaints : Setting → Option Setting.Warning,
        (∀ s : Setting, ∃ found, s.Told o.env found (complaints s)) →
        (resolved.2.filter fun event => event.level = .warn).map
            (fun event => (event.message, event.fields)) =
          finding.warnings ++ Setting.all.filterMap complaints) ∧
    ∀ grants source journal,
      (∀ e, Tape.new grants resolved.1.tapeSize resolved.1.cellMode = .error e →
        resolved.1.build grants source journal = .error (.tape e)) ∧
      ∀ tape, Tape.new grants resolved.1.tapeSize resolved.1.cellMode = .ok tape →
        ∃ i, resolved.1.build grants source journal = .ok i ∧
          Equips resolved.1 tape source i := by
  intro resolved
  have resolved_eq : resolved = _ := resolve_eq o overrides
  refine ⟨exists_finds o, Setting.exists_told o.env, fun finding finds => ⟨?_, ?_, ?_⟩, ?_⟩
  · intro s found complaint told
    rw [resolved_eq, Setting.inForce_override, Setting.inForce_override,
      Setting.inForce_override, told.given_layer, finds.file_eq.1, Setting.inForce_default]
    cases s.given overrides with
    | some value => rfl
    | none => cases found <;> rfl
  · rintro message rfl
    let without : Origins := { o with files := { o.files with present := fun _ => false } }
    have nothing : without.file.1 = {} := by
      simp only [Origins.file, without]
      split <;> rfl
    rw [resolved_eq, resolve_eq without, nothing, finds.file_eq.1]
    rfl
  · intro complaints tell
    obtain ⟨all_warnings, warnings⟩ := Setting.warnings_layer tell
    have kept : (o.env.layer.2.filter fun event => event.level = .warn) = o.env.layer.2 :=
      List.filter_eq_self.mpr fun event member => decide_eq_true (all_warnings event member)
    rw [resolved_eq, List.filter_append, List.map_append, kept]
    exact congrArg₂ (· ++ ·) finds.file_eq.2 warnings
  · intro grants source journal
    exact ⟨fun e failed => build_of_error failed source journal,
      fun tape built => exists_build_of_ok built source journal⟩

/-- A file that gives three of the settings, of which a variable in capitals outvotes one. Another
variable holds no size, and a third no truth value, although the command line decides that. -/
theorem resolve_layered_with_all_layers :
    let text := "[interpreter]\ntape_size = 5\ncell_mode = \"unbounded\"\noutput = \"ascii\"\n"
    let o : Origins :=
      { env := fun name => [("TAPEBF_CONFIG", "a.toml"), ("TAPEBF_TAPE_SIZE", "64k"),
          ("TAPEBF_CELL_MODE", " BYTE\n"), ("TAPEBF_EXTENSIONS", "yes")].lookup name
        home := none
        files :=
          { present := fun path => path = "a.toml"
            read := fun path => if path = "a.toml" then .ok text.toUTF8.data.toList
              else .error "No such file or directory (os error 2)" }
        layer := fun other => if other = text then
            .ok { tapeSize := some 5, cellMode := some .unbounded, output := some .ascii }
          else .error "expected a table" }
    let resolved := resolve o { extensions := some true }
    resolved.1 =
        { tapeSize := 5, cellMode := .byte, output := .ascii, extensions := true } ∧
      (resolved.2.filter fun event => event.level = .warn).map
          (fun event => (event.message, event.fields)) =
        [("ignoring environment variable", [("key", .quoted "TAPEBF_TAPE_SIZE"),
          ("value", .plain "64k"), ("error", .plain "invalid digit found in string")]),
         ("ignoring environment variable", [("key", .quoted "TAPEBF_EXTENSIONS"),
          ("value", .plain "yes"),
          ("error", .plain "expected 1/0/true/false, got 'yes'")])] := by
  intro text o resolved
  have finds : Finds o (.accepted
      { tapeSize := some 5, cellMode := some .unbounded, output := some .ascii }) :=
    @Finds.accepted o "a.toml" text _ (.named rfl) rfl rfl (by simp only [o, if_true])
  have size := @Setting.told_of_error .tapeSize _ o.env "64k" rfl
    (show readSize "64k" = .error "invalid digit found in string" by decide)
  have mode : Setting.cellMode.Told o.env (some CellMode.byte) none :=
    .valid rfl (Text.isCore_trimList " BYTE\n".toList) (.byte (by decide))
  have output : Setting.output.Told o.env none none := .unset rfl
  have switch := @Setting.told_of_error .extensions _ o.env "yes" rfl
    (show readSwitch "yes" = .error "expected 1/0/true/false, got 'yes'" by decide)
  obtain ⟨-, -, layered, -⟩ := resolve_layered o { extensions := some true }
  obtain ⟨decided, -, warned⟩ := layered _ finds
  have complaints := warned
    (fun | .tapeSize => _ | .cellMode => none | .output => none | .extensions => _)
    (fun | .tapeSize => ⟨_, size⟩ | .cellMode => ⟨_, mode⟩ | .output => ⟨_, output⟩
         | .extensions => ⟨_, switch⟩)
  have tapeSize : resolved.1.tapeSize = 5 := decided .tapeSize _ _ size
  have cellMode : resolved.1.cellMode = .byte := decided .cellMode _ _ mode
  have format : resolved.1.output = .ascii := decided .output _ _ output
  have extensions : resolved.1.extensions = true := decided .extensions _ _ switch
  refine ⟨?_, complaints⟩
  rw [← tapeSize, ← cellMode, ← format, ← extensions]

end Settings

end RingTape
