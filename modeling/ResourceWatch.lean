import ResourceWatch.Main
import ResourceWatch.Pods
import ResourceWatch.UnaryCall
import ResourceWatch.Watch.Calls
import ResourceWatch.Proofs.Store.Delivery
import ResourceWatch.Proofs.Store.Draining
import ResourceWatch.Proofs.Store.Arrivals
import ResourceWatch.Proofs.Store.Following
import ResourceWatch.Proofs.Watch.HandOver
import ResourceWatch.Proofs.Region.Tags
import ResourceWatch.Proofs.Region.Frame
import ResourceWatch.Proofs.Region.Cuts
import ResourceWatch.Proofs.Region.Repetition
import ResourceWatch.Proofs.Region.Independence
import ResourceWatch.Proofs.Rendering.Filled
import ResourceWatch.Proofs.Rendering.Shape
import ResourceWatch.Proofs.FileTree.Replacement
import ResourceWatch.Proofs.Rendering.Code
import ResourceWatch.Proofs.Generation.Calls
import ResourceWatch.Proofs.Generation.LastCall
import ResourceWatch.Proofs.Generation.NormalForm
import ResourceWatch.Proofs.Watch.Receiving
import ResourceWatch.Proofs.Watch.Advances
import ResourceWatch.Proofs.Watch.Serving
import ResourceWatch.Proofs.Watch.Course
import ResourceWatch.Proofs.Watch.Rehearsal
import ResourceWatch.Proofs.Watch.Rest
import ResourceWatch.Proofs.Store.Beside
import ResourceWatch.Proofs.Watch.Changes
import ResourceWatch.Proofs.Watch.Company
import ResourceWatch.Proofs.Watch.Convergence
import ResourceWatch.Proofs.FileTree.Refusals
import ResourceWatch.Proofs.Generation.Acceptance
import ResourceWatch.Proofs.Generation.AllOrNothing
import ResourceWatch.Proofs.Store.Shedding
import ResourceWatch.Proofs.Watch.Hall
import ResourceWatch.Proofs.Watch.Leaks
import ResourceWatch.Proofs.Store.Registration
import ResourceWatch.Proofs.Store.Ending
import ResourceWatch.Proofs.Watch.Hosting
import ResourceWatch.Proofs.Watch.Calm
import ResourceWatch.Proofs.Watch.Scene
import ResourceWatch.Proofs.Watch.Stage
import ResourceWatch.Proofs.Watch.Interference
import ResourceWatch.Proofs.Watch.Capacities
import ResourceWatch.Proofs.Watch.FirstItem
import ResourceWatch.Proofs.Watch.Dealings
import ResourceWatch.Proofs.Watch.Owners
import ResourceWatch.Proofs.Watch.Backlog
import ResourceWatch.Proofs.ChangeCache.Observations
import ResourceWatch.Proofs.Store.Values
import ResourceWatch.Proofs.Store.Ledger
import ResourceWatch.Proofs.Settings.Override
import ResourceWatch.Proofs.Settings.Variables
import ResourceWatch.Proofs.Rendering.FieldName
import ResourceWatch.Proofs.Settings.Flaws
import ResourceWatch.Proofs.Template.Literal
