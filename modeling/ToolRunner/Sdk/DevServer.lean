import ToolRunner.Sdk.Flag

/-!
# Development servers

The options of `dev_appserver.py`.
-/

namespace ToolRunner.Sdk

/-- What to serve and how. What is absent is left to the tool. -/
structure DevServer where
  appFiles : List Path := []
  host : Option String := none
  port : Option Int := none
  adminHost : Option String := none
  adminPort : Option Int := none
  apiPort : Option Int := none
  authDomain : Option String := none
  storagePath : Option Path := none
  logLevel : Option String := none
  serverLogLevel : Option String := none
  maxModuleInstances : Option Int := none
  runtime : Option String := none
  defaultBucketName : Option String := none
  useMtimeFileWatcher : Option Bool := none
  allowSkippedFiles : Option Bool := none
  automaticRestart : Option Bool := none
  skipUpdateCheck : Option Bool := none
  jvmFlags : List String := []
  /-- Variables handed to the served app. -/
  environment : SortedMap String String := ∅
deriving DecidableEq

namespace DevServer

def truth (b : Bool) : String := if b then "true" else "false"

/-- The tokens for the tool, app files first. -/
def toArgs (d : DevServer) : List String :=
  d.appFiles.map Path.display ++
    Flag.textJoined "host" d.host ++
    Flag.integer "port" d.port ++
    Flag.textJoined "admin_host" d.adminHost ++
    Flag.integer "admin_port" d.adminPort ++
    Flag.integer "api_port" d.apiPort ++
    Flag.textJoined "auth_domain" d.authDomain ++
    Flag.path "storage_path" d.storagePath ++
    Flag.text "log_level" d.logLevel ++
    Flag.text "dev_appserver_log_level" d.serverLogLevel ++
    Flag.integer "max_module_instances" d.maxModuleInstances ++
    Flag.text "runtime" d.runtime ++
    Flag.text "default_gcs_bucket_name" d.defaultBucketName ++
    Flag.switch "use_mtime_file_watcher" d.useMtimeFileWatcher ++
    Flag.switch "allow_skipped_files" d.allowSkippedFiles ++
    Flag.switch "skip_sdk_update_check" d.skipUpdateCheck ++
    Flag.textJoined "automatic_restart" (d.automaticRestart.map truth) ++
    Flag.texts "jvm_flag" d.jvmFlags ++
    Flag.texts "env_var" (Flag.pairs d.environment)

end DevServer

end ToolRunner.Sdk
