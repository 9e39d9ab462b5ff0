import ServiceHost.Builtin.Manifest
import ServiceHost.CommandLine
import ServiceHost.Launch.InProcess
import ServiceHost.Logging.PanicLine
import ServiceHost.Main
import ServiceHost.Proofs.Boot.Act
import ServiceHost.Proofs.Boot.Consumers
import ServiceHost.Proofs.Boot.Rearranged
import ServiceHost.Proofs.Boot.Run
import ServiceHost.Proofs.Boot.Starved
import ServiceHost.Proofs.Boot.Stock
import ServiceHost.Proofs.Boot.Trace
import ServiceHost.Proofs.Boot.Writers
import ServiceHost.Proofs.Capability.Form
import ServiceHost.Proofs.Discovery.Calls
import ServiceHost.Proofs.Discovery.Candidates
import ServiceHost.Proofs.Discovery.HandedOut
import ServiceHost.Proofs.Discovery.Holdings
import ServiceHost.Proofs.Graph.Cycles
import ServiceHost.Proofs.Graph.Declarations
import ServiceHost.Proofs.Graph.Drawing
import ServiceHost.Proofs.Graph.Edges
import ServiceHost.Proofs.Graph.Order
import ServiceHost.Proofs.Graph.Placement
import ServiceHost.Proofs.Graph.Turns
import ServiceHost.Proofs.Health.Refresh
import ServiceHost.Proofs.Health.Written
import ServiceHost.Proofs.Host.Frame
import ServiceHost.Proofs.Host.Injection
import ServiceHost.Proofs.Host.Journal
import ServiceHost.Proofs.Host.Registrations
import ServiceHost.Proofs.Host.Slots
import ServiceHost.Proofs.InProcess.Attempt
import ServiceHost.Proofs.InProcess.Given
import ServiceHost.Proofs.InProcess.Mocks
import ServiceHost.Proofs.Launch.Holders
import ServiceHost.Proofs.Launch.Outcomes
import ServiceHost.Proofs.Launch.Parts
import ServiceHost.Proofs.Launch.Startup
import ServiceHost.Proofs.Logging.SetUp
import ServiceHost.Proofs.Passes
import ServiceHost.Proofs.Settings.Below
import ServiceHost.Proofs.Settings.Environment
import ServiceHost.Proofs.Settings.Flat
import ServiceHost.Proofs.Settings.Flattened
import ServiceHost.Proofs.Settings.Groups
import ServiceHost.Proofs.Settings.Integers
import ServiceHost.Proofs.Settings.Keys
import ServiceHost.Proofs.Settings.Layers
import ServiceHost.Proofs.Settings.Leaves
import ServiceHost.Proofs.Settings.Nested
import ServiceHost.Proofs.Settings.Overlay
import ServiceHost.Proofs.Shutdown.Calls
import ServiceHost.Proofs.Shutdown.Injectors
import ServiceHost.Proofs.Shutdown.Requests
import ServiceHost.Proofs.Shutdown.Stops
import ServiceHost.Proofs.Text.ByteOrder
import ServiceHost.Rehearsal.LaunchScript
