import LayoutEngine.Main
import LayoutEngine.Proofs.Appending
import LayoutEngine.Proofs.Atomic
import LayoutEngine.Proofs.Attachment
import LayoutEngine.Proofs.Cancellation
import LayoutEngine.Proofs.Copy
import LayoutEngine.Proofs.Course
import LayoutEngine.Proofs.Dataflow
import LayoutEngine.Proofs.Destination
import LayoutEngine.Proofs.Dimension
import LayoutEngine.Proofs.Dispatch
import LayoutEngine.Proofs.EarlyFailure
import LayoutEngine.Proofs.EventText
import LayoutEngine.Proofs.IdGenerator
import LayoutEngine.Proofs.Independence
import LayoutEngine.Proofs.Literal
import LayoutEngine.Proofs.Loading
import LayoutEngine.Proofs.Numbers
import LayoutEngine.Proofs.Outline
import LayoutEngine.Proofs.Override
import LayoutEngine.Proofs.Parallel
import LayoutEngine.Proofs.Path
import LayoutEngine.Proofs.Placeholders
import LayoutEngine.Proofs.Reference
import LayoutEngine.Proofs.Refresh
import LayoutEngine.Proofs.Rejection
import LayoutEngine.Proofs.Repetition
import LayoutEngine.Proofs.Search
import LayoutEngine.Proofs.Separation
import LayoutEngine.Proofs.Sharing
import LayoutEngine.Proofs.Source
import LayoutEngine.Proofs.Spelling
import LayoutEngine.Proofs.Tagging
import LayoutEngine.Session.Inspect
import LayoutEngine.Value.Equality
import LayoutEngine.Workbench.Step
