import ToolRunner.Main
import ToolRunner.Proofs.Config.Checking
import ToolRunner.Proofs.Config.Loading
import ToolRunner.Proofs.Config.Stating
import ToolRunner.Proofs.Execution.Killing
import ToolRunner.Proofs.Execution.Progress
import ToolRunner.Proofs.Executor.Rehearsing
import ToolRunner.Proofs.Line.CapBoundary
import ToolRunner.Proofs.Line.Ending
import ToolRunner.Proofs.Line.Excerpts
import ToolRunner.Proofs.Line.Isolation
import ToolRunner.Proofs.Line.RoundTrip
import ToolRunner.Proofs.Program.Verbatim
import ToolRunner.Proofs.Sdk.Candidates
import ToolRunner.Proofs.Sdk.Deployments
import ToolRunner.Proofs.Sdk.Finding
import ToolRunner.Proofs.Sdk.Installing
import ToolRunner.Proofs.Sdk.Servers
import ToolRunner.Proofs.Session.Interrupting
import ToolRunner.Proofs.Tokens.Division
import ToolRunner.Proofs.Tokens.Joining
import ToolRunner.Recorder
