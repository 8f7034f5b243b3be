import Mathlib
import ToolRunner.Proofs.Sdk.Forms
import ToolRunner.Sdk.Toolkit

/-!
# What the tokens of a development server tell

The options of a development server are written in five shapes, but each of them begins with a flag
of its own. So they are read back from the tokens as they were given: all integers, every value for
the virtual machine, and the whole map of variables, whose names end at the first equals sign
(`DevServer.recovered`). Further arguments stand after all of these.
-/

namespace ToolRunner.Sdk.DevServer

open ToolRunner.Sdk.Flag (Form looksLikeFlag)

/-! ## Integers, truth values and variables -/

def truth? (text : String) : Option Bool :=
  if text = "true" then some true else if text = "false" then some false else none

theorem truth?_truth (b : Bool) : truth? (truth b) = some b := by cases b <;> rfl

def integerForm (name : String) : Form (Option Int) :=
  (Form.value name).through (·.map toString) (·.bind String.toInt?) (fun _ => rfl) fun n => by
    cases n with
    | none => rfl
    | some n => exact Int.toInt?_repr n

def truthForm (name : String) : Form (Option Bool) :=
  (Form.textJoined name).through (·.map truth) (·.bind truth?)
    (fun b => by match b with | none | some true | some false => rfl)
    fun b => by
      cases b with
      | none => rfl
      | some b => exact truth?_truth b

theorem write_integerForm (name : String) (n : Option Int) :
    (integerForm name).write n = Flag.integer name n := by cases n <;> rfl

theorem write_value_display (name : String) (p : Option Path) :
    (Form.value name).write (p.map Path.display) = Flag.path name p := by cases p <;> rfl

/-- Divides a variable at the first equals sign. -/
def divided (pair : String) : String × String :=
  (String.ofList (pair.toList.takeWhile (· ≠ '=')),
    String.ofList ((pair.toList.dropWhile (· ≠ '=')).drop 1))

theorem divided_pair {name : String} (value : String) (h : '=' ∉ name.toList) :
    divided (name ++ "=" ++ value) = (name, value) := by
  have hname : ∀ c ∈ name.toList, decide (c ≠ '=') = true := fun c hc =>
    decide_eq_true fun heq => h (heq ▸ hc)
  have hlist : (name ++ "=" ++ value).toList = name.toList ++ '=' :: value.toList := by simp
  simp only [divided, hlist, List.takeWhile_append_of_pos hname,
    List.dropWhile_append_of_pos hname]
  simp

/-- Variables whose names hold no equals sign are got back from their pairs, in their order. -/
theorem ofList_pairs {vars : SortedMap String String}
    (h : ∀ v ∈ vars.toList, '=' ∉ v.1.toList) :
    .ofList ((Flag.pairs vars).map divided) = vars := by
  have hmap : (Flag.pairs vars).map divided = vars.toList := by
    rw [Flag.pairs, List.map_map]
    exact (List.map_congr_left fun v hv => divided_pair v.2 (h v hv)).trans (List.map_id _)
  rw [hmap, SortedMap.ofList_toList]

/-! ## All options -/

abbrev Network : Type :=
  Option String × Option Int × Option String × Option Int × Option Int × Option String

abbrev Service : Type :=
  Option String × Option String × Option String × Option Int × Option String × Option String

abbrev Behaviour : Type :=
  Option Bool × Option Bool × Option Bool × Option Bool × List String × List String

def networkForm : Form Network :=
  (Form.textJoined "host").and
    ((integerForm "port").and
      ((Form.textJoined "admin_host").and
        ((integerForm "admin_port").and
          ((integerForm "api_port").and (Form.textJoined "auth_domain")
            (by decide)) (by decide)) (by decide)) (by decide))
    (by decide)

def serviceForm : Form Service :=
  (Form.value "storage_path").and
    ((Form.text "log_level").and
      ((Form.text "dev_appserver_log_level").and
        ((integerForm "max_module_instances").and
          ((Form.text "runtime").and (Form.text "default_gcs_bucket_name")
            (by decide)) (by decide)) (by decide)) (by decide))
    (by decide)

def behaviourForm : Form Behaviour :=
  (Form.switch "use_mtime_file_watcher").and
    ((Form.switch "allow_skipped_files").and
      ((Form.switch "skip_sdk_update_check").and
        ((truthForm "automatic_restart").and
          ((Form.texts "jvm_flag").and (Form.texts "env_var")
            (by decide)) (by decide)) (by decide)) (by decide))
    (by decide)

/-- The options, in the order in which they are written. -/
def form : Form (Network × Service × Behaviour) :=
  networkForm.and (serviceForm.and behaviourForm (by decide)) (by decide)

theorem looksLikeFlag_flags : ∀ flag ∈ form.flags, looksLikeFlag flag = true := by decide

/-- The options of a server, with paths as they are displayed and variables as pairs. -/
def options (d : DevServer) : Network × Service × Behaviour :=
  ((d.host, d.port, d.adminHost, d.adminPort, d.apiPort, d.authDomain),
    (d.storagePath.map Path.display, d.logLevel, d.serverLogLevel, d.maxModuleInstances, d.runtime,
      d.defaultBucketName),
    (d.useMtimeFileWatcher, d.allowSkippedFiles, d.skipUpdateCheck, d.automaticRestart, d.jvmFlags,
      Flag.pairs d.environment))

def ofOptions (appFiles : List Path) : Network × Service × Behaviour → DevServer
  | ((host, port, adminHost, adminPort, apiPort, authDomain),
      (storage, logLevel, serverLogLevel, maxModuleInstances, runtime, defaultBucketName),
      (watcher, skipped, skipUpdateCheck, automaticRestart, jvmFlags, pairs)) =>
    { appFiles, host, port, adminHost, adminPort, apiPort, authDomain,
      storagePath := storage.map Path.ofString, logLevel, serverLogLevel, maxModuleInstances,
      runtime, defaultBucketName, useMtimeFileWatcher := watcher, allowSkippedFiles := skipped,
      skipUpdateCheck, automaticRestart, jvmFlags, environment := .ofList (pairs.map divided) }

/-! ## Reading a server back -/

/-- No file to serve is displayed like a flag, and no variable has an equals sign in its name. -/
structure Plain (d : DevServer) : Prop where
  files : ∀ p ∈ d.appFiles, looksLikeFlag p.display = false
  names : ∀ v ∈ d.environment.toList, '=' ∉ v.1.toList

/-- What the tokens tell of a server: its paths as they are displayed, no difference between an
empty text and none, and none between a switch that is off and none. -/
def told (d : DevServer) : DevServer where
  appFiles := d.appFiles.map fun p => Path.ofString p.display
  host := d.host.filter (· ≠ "")
  port := d.port
  adminHost := d.adminHost.filter (· ≠ "")
  adminPort := d.adminPort
  apiPort := d.apiPort
  authDomain := d.authDomain.filter (· ≠ "")
  storagePath := d.storagePath.map fun p => Path.ofString p.display
  logLevel := d.logLevel.filter (· ≠ "")
  serverLogLevel := d.serverLogLevel.filter (· ≠ "")
  maxModuleInstances := d.maxModuleInstances
  runtime := d.runtime.filter (· ≠ "")
  defaultBucketName := d.defaultBucketName.filter (· ≠ "")
  useMtimeFileWatcher := d.useMtimeFileWatcher.filter id
  allowSkippedFiles := d.allowSkippedFiles.filter id
  automaticRestart := d.automaticRestart
  skipUpdateCheck := d.skipUpdateCheck.filter id
  jvmFlags := d.jvmFlags
  environment := d.environment

/-- Reads a server back from its tokens. The options begin where a token looks like a flag. -/
def read (args : List String) : DevServer :=
  ofOptions ((args.takeWhile (!looksLikeFlag ·)).map Path.ofString)
    (form.read (args.dropWhile (!looksLikeFlag ·))).1

variable {d d' : DevServer}

theorem toArgs_eq (d : DevServer) :
    d.toArgs = d.appFiles.map Path.display ++ form.write d.options := by
  delta toArgs
  simp only [form, networkForm, serviceForm, behaviourForm, options, Form.write_and,
    write_integerForm, write_value_display, List.append_assoc]
  rfl

theorem told_options (d : DevServer) :
    form.told d.options = { d.told with storagePath := d.storagePath }.options := rfl

theorem told_eq (h : d.Plain) :
    d.told = ofOptions ((d.appFiles.map Path.display).map Path.ofString) (form.told d.options) := by
  have hpairs : .ofList ((Flag.pairs d.told.environment).map divided) = d.told.environment :=
    ofList_pairs h.names
  rw [told_options, List.map_map]
  simp only [ofOptions, options, Option.map_map, hpairs]
  rfl

theorem toArgs_congr (heq : d.told = d'.told) : d.toArgs = d'.toArgs := by
  have hinj : Function.Injective Path.ofString := fun s t => Bytes.ofString_inj.mp
  have hfiles : d.appFiles.map Path.display = d'.appFiles.map Path.display := by
    have hmap : d.appFiles.map (Path.ofString ∘ Path.display) =
        d'.appFiles.map (Path.ofString ∘ Path.display) := congrArg appFiles heq
    rw [← List.map_map, ← List.map_map] at hmap
    exact List.map_injective_iff.mpr hinj hmap
  have hstorage : d.storagePath.map Path.display = d'.storagePath.map Path.display := by
    have hmap : d.storagePath.map (Path.ofString ∘ Path.display) =
        d'.storagePath.map (Path.ofString ∘ Path.display) := congrArg storagePath heq
    rw [← Option.map_map, ← Option.map_map] at hmap
    exact Option.map_injective hinj hmap
  have hoptions : form.told d.options = form.told d'.options := by
    rw [told_options, told_options, heq]
    simp only [options, hstorage]
  rw [toArgs_eq, toArgs_eq, hfiles, form.write_eq_iff.mpr hoptions]

theorem read_toArgs (h : d.Plain) : read d.toArgs = d.told := by
  have hpaths : ∀ arg ∈ d.appFiles.map Path.display, looksLikeFlag arg = false := by
    intro arg harg
    obtain ⟨p, hp, rfl⟩ := List.mem_map.mp harg
    exact h.files p hp
  obtain ⟨htake, hdrop⟩ := form.span_write looksLikeFlag_flags d.options hpaths
  rw [toArgs_eq, told_eq h, read, htake, hdrop, form.read_write_self]

theorem args_devServerCommand (t : Toolkit) (d : DevServer) (extra : List String) :
    (t.devServerCommand d extra).args =
      d.toArgs.map Bytes.ofString ++ extra.map Bytes.ofString := by
  simp only [Toolkit.devServerCommand, Toolkit.devAppserverCommand, Command.setAll, Command.addArgs,
    Command.new, List.nil_append, List.map_append]

/-- The tokens of a server tell its files and its storage as they are displayed, each of its texts
that is not empty, its integers, its choices, the switches that are on, every value for the virtual
machine and all variables. The command of a server ends with the further arguments. -/
theorem recovered (h : d.Plain) (h' : d'.Plain) :
    read d.toArgs = d.told ∧ (d.toArgs = d'.toArgs ↔ d.told = d'.told) ∧
      ∀ (t : Toolkit) (extra : List String), (t.devServerCommand d extra).args =
        d.toArgs.map Bytes.ofString ++ extra.map Bytes.ofString := by
  refine ⟨read_toArgs h, ⟨fun heq => ?_, toArgs_congr⟩, fun t => args_devServerCommand t d⟩
  rw [← read_toArgs h, heq, read_toArgs h']

/-- Values for the virtual machine that look like options or are empty, the least integer, and a
variable with an equals sign in its value. -/
theorem recovered_lookalikes :
    let d : DevServer :=
      { appFiles := [Path.ofString "app.yaml"], port := some (-9223372036854775808),
        jvmFlags := ["--env_var", "", "A=1"], environment := .ofList [("A", "x=y"), ("", "")] }
    let d' : DevServer := { d with host := some "", allowSkippedFiles := some false }
    read d.toArgs = d.told ∧ (d.toArgs = d'.toArgs ↔ d.told = d'.told) ∧
      ∀ (t : Toolkit) (extra : List String), (t.devServerCommand d extra).args =
        d.toArgs.map Bytes.ofString ++ extra.map Bytes.ofString :=
  recovered ⟨by decide, by decide⟩ ⟨by decide, by decide⟩

end ToolRunner.Sdk.DevServer
