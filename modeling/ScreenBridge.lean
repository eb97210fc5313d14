import ScreenBridge.Main
import ScreenBridge.Proofs.Visible
import ScreenBridge.Store.Memory
import ScreenBridge.Viewer.Run
import ScreenBridge.Proofs.Schedule
import ScreenBridge.Proofs.Steps
import ScreenBridge.Proofs.Footprint
import ScreenBridge.Proofs.Operation
import ScreenBridge.Proofs.Faults
import ScreenBridge.Proofs.Frame
import ScreenBridge.Proofs.Blind
import ScreenBridge.Proofs.Healthy
import ScreenBridge.Proofs.Interference
import ScreenBridge.Proofs.Raster
import ScreenBridge.Proofs.Color
import ScreenBridge.Proofs.Netpbm
import ScreenBridge.Proofs.PlainStore
import ScreenBridge.Proofs.Access
import ScreenBridge.Proofs.Segment
import ScreenBridge.Proofs.Rendezvous
import ScreenBridge.Proofs.Bounds
import ScreenBridge.Proofs.Sturdy
import ScreenBridge.Proofs.Phases
import ScreenBridge.Proofs.Cadence
import ScreenBridge.Proofs.HonestStore
import ScreenBridge.Proofs.Batches
import ScreenBridge.Proofs.Release
import ScreenBridge.Proofs.Retry
import ScreenBridge.Proofs.Delivery
import ScreenBridge.Proofs.Decoding
import ScreenBridge.Proofs.Redraw
import ScreenBridge.Proofs.Command
import ScreenBridge.Proofs.Feed
import ScreenBridge.Proofs.Opening
import ScreenBridge.Proofs.Settings
import ScreenBridge.Proofs.Start
import ScreenBridge.Proofs.Aliases
import ScreenBridge.Proofs.Constants
import ScreenBridge.Proofs.SavedSettings
import ScreenBridge.Proofs.Numerals
import ScreenBridge.Proofs.Names
import ScreenBridge.Proofs.CutImage
import ScreenBridge.Proofs.Moves
import ScreenBridge.Proofs.Snapshot
import ScreenBridge.Proofs.Cells
import ScreenBridge.Proofs.Clamped
