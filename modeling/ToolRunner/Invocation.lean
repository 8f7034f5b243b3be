import ToolRunner.Log.Level
import ToolRunner.Options.Parser
import ToolRunner.Sdk.Deploy
import ToolRunner.Sdk.DevServer

/-!
# Invocations

What the command line asks for: a config file, a log level, and one of five actions.
-/

namespace ToolRunner

open Options

/-- A program to run and how to run it. -/
structure ExecRequest where
  asynchronous : Bool
  inherit : Bool
  directory : Option Path
  /-- Variables in the order in which they were given. -/
  environment : List (String × String)
  /-- The whole command as one text. -/
  line : Option String
  argv : List String
deriving DecidableEq, Repr

inductive Action where
  | exec (request : ExecRequest)
  | app (args : List String)
  | deploy (deployment : Sdk.Deployment)
  | devServer (server : Sdk.DevServer) (extra : List String)
  | install (usageReporting : Bool)

/-- A command line that was accepted. -/
structure Invocation where
  config : Option Path
  logLevel : Option Log.Level
  action : Action

namespace Invocation

def valued (name : String) (form : Form) : Flag := ⟨name, .single form, false⟩

def switch (name : String) : Flag := ⟨name, .switch, false⟩

/-- The options before the command. -/
def mainGrammar : Grammar where
  flags := [valued "config" .path, valued "log-level" (.word (Log.Level.all.map Log.Level.name))]
  commands := ["exec", "app", "deploy", "dev-server", "install"]
  versioned := true

def execGrammar : Grammar where
  flags :=
    [switch "async", switch "inherit", valued "cwd" .path, ⟨"env", .repeated .pair, false⟩,
      valued "line" .text]
  trailing := some { name := "argv", form := .text }
  conflicts := [("line", "argv")]

def appGrammar : Grammar where
  flags := []
  operands := some { name := "args", form := .text, verbatim := true }

def deployGrammar : Grammar where
  flags :=
    [valued "version" .text, valued "project" .text, valued "bucket" .text,
      valued "image-url" .text, switch "promote", switch "no-promote",
      switch "stop-previous-version", switch "no-stop-previous-version"]
  operands := some { name := "deployables", form := .path, required := true }
  conflicts :=
    [("promote", "no-promote"), ("stop-previous-version", "no-stop-previous-version")]

def devServerGrammar : Grammar where
  flags :=
    [valued "host" .text, valued "port" .integer, valued "admin-port" .integer,
      ⟨"jvm-flag", .repeated .text, true⟩]
  operands := some { name := "app-files", form := .path, required := true }
  trailing := some { name := "extra", form := .text }

def installGrammar : Grammar where
  flags := [switch "usage-reporting"]

/-- The choice that a pair of switches makes. -/
def either (yes no : Bool) : Option Bool :=
  if yes then some true else if no then some false else none

def execAction (found : Found) : Action :=
  .exec
    { asynchronous := found.has "async"
      inherit := found.has "inherit"
      directory := (found.paths "cwd").head?
      environment := found.pairs "env"
      line := (found.texts "line").head?
      argv := found.texts "argv" }

def deployAction (found : Found) : Action :=
  .deploy
    { deployables := found.paths "deployables"
      version := (found.texts "version").head?
      project := (found.texts "project").head?
      bucket := (found.texts "bucket").head?
      imageUrl := (found.texts "image-url").head?
      promote := either (found.has "promote") (found.has "no-promote")
      stopPreviousVersion :=
        either (found.has "stop-previous-version") (found.has "no-stop-previous-version") }

def devServerAction (found : Found) : Action :=
  .devServer
    { appFiles := found.paths "app-files"
      host := (found.texts "host").head?
      port := (found.integers "port").head?
      adminPort := (found.integers "admin-port").head?
      jvmFlags := found.texts "jvm-flag" }
    (found.texts "extra")

/-- What a command with its arguments asks for. -/
def readAction (name : String) (args : List Bytes) : Except Usage Action :=
  match name with
  | "exec" => (parse execGrammar args).map execAction
  | "app" => (parse appGrammar args).map fun found => .app (found.texts "args")
  | "deploy" => (parse deployGrammar args).map deployAction
  | "dev-server" => (parse devServerGrammar args).map devServerAction
  | "install" => (parse installGrammar args).map fun found => .install (found.has "usage-reporting")
  | _ => .error .unknownCommand

/-- Help for a command, which must be known and has none of its own. -/
def readHelp (args : List Bytes) : Usage :=
  match args with
  | [] => .help
  | [arg] => if (commandName? mainGrammar arg).isSome then .help else .unknownCommand
  | _ => .unknownCommand

def level? (name : String) : Option Log.Level :=
  Log.Level.all.find? (·.name == name)

/-- Reads the arguments of the program. What is wrong after the command is reported before what is
wrong with the value of an option right before it. -/
def read (args : List Bytes) : Except Usage Invocation := do
  let parsed ← scan mainGrammar {} args
  match parsed.command with
  | none =>
    let _ ← finish mainGrammar parsed.progress false
    .error .missingCommand
  | some (name, args) =>
    if name = "help" then .error (readHelp args)
    else
      let action ← readAction name args
      let found ← finish mainGrammar parsed.progress true
      .ok
        { config := (found.paths "config").head?
          logLevel := (found.texts "log-level").head?.bind level?
          action }

end Invocation

end ToolRunner
