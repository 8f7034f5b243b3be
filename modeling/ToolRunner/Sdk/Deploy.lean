import ToolRunner.Sdk.Flag

/-!
# Deployments

The options of `gcloud app deploy`.
-/

namespace ToolRunner.Sdk

/-- What to deploy and how. An absent choice is left to the tool. -/
structure Deployment where
  deployables : List Path := []
  bucket : Option String := none
  dockerBuild : Option String := none
  force : Option Bool := none
  imageUrl : Option String := none
  promote : Option Bool := none
  server : Option String := none
  stopPreviousVersion : Option Bool := none
  version : Option String := none
  project : Option String := none
deriving DecidableEq, Repr

namespace Deployment

/-- The tokens that follow `gcloud app`. -/
def toArgs (d : Deployment) : List String :=
  ["deploy"] ++ d.deployables.map Path.display ++
    Flag.text "bucket" d.bucket ++
    Flag.text "docker-build" d.dockerBuild ++
    Flag.choice "force" d.force ++
    Flag.text "image-url" d.imageUrl ++
    Flag.choice "promote" d.promote ++
    Flag.text "server" d.server ++
    Flag.choice "stop-previous-version" d.stopPreviousVersion ++
    Flag.text "version" d.version ++
    Flag.text "project" d.project

end Deployment

end ToolRunner.Sdk
