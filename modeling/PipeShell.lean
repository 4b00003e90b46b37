import PipeShell.Main
import PipeShell.Rehearsal
import PipeShell.Proofs.Line.Grammar
import PipeShell.Proofs.Compile.Coherence
import PipeShell.Proofs.Wiring.Connected
import PipeShell.Proofs.Wiring.Ownership
import PipeShell.Proofs.Supervisor.Law
import PipeShell.Proofs.Supervisor.Custody
import PipeShell.Proofs.Evaluation
import PipeShell.Proofs.Job.Child
import PipeShell.Proofs.Job.Isolation
import PipeShell.Proofs.Alias.Chains
import PipeShell.Proofs.Alias.Calls
import PipeShell.Proofs.Alias.Expansion
import PipeShell.Proofs.Session.Builtins
import PipeShell.Proofs.FileSystem.Rewriting
import PipeShell.Proofs.Session.Development
import PipeShell.Proofs.Text.Encoding
import PipeShell.Proofs.Settings.Restart
import PipeShell.Proofs.ReadLoop.Lines
import PipeShell.Proofs.ReadLoop.Law
import PipeShell.Proofs.SearchPath.Adding
import PipeShell.Proofs.Job.Calls
import PipeShell.Proofs.Job.OneGroup
import PipeShell.Proofs.SearchPath.Sessions
import PipeShell.Proofs.Settings.Place
import PipeShell.Proofs.Compile.Arguments
import PipeShell.Proofs.Alias.Transparency
import PipeShell.Proofs.History.Longest
import PipeShell.Proofs.Session.Fatal
import PipeShell.Proofs.Session.Frames
import PipeShell.Proofs.Line.FirstBroken
import PipeShell.Proofs.Wiring.OutputLast
import PipeShell.Proofs.Wiring.Shortage
import PipeShell.Proofs.Wiring.Missing
import PipeShell.Proofs.Alias.Order
import PipeShell.Proofs.Alias.Ending
import PipeShell.Proofs.SearchPath.Resolution
import PipeShell.Proofs.Line.Spacing
import PipeShell.Proofs.Line.Leftover
import PipeShell.Proofs.Compile.Joined
import PipeShell.Proofs.Alias.Definition
