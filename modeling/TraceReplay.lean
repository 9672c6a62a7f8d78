import TraceReplay.CommandLine.Directory
import TraceReplay.Limits
import TraceReplay.Main
import TraceReplay.Proofs.CommandLine
import TraceReplay.Proofs.Json.Steps
import TraceReplay.Proofs.Locales
import TraceReplay.Proofs.Memory.StackLayout
import TraceReplay.Proofs.Replay.Addresses
import TraceReplay.Proofs.Replay.Bounds
import TraceReplay.Proofs.Replay.Callers
import TraceReplay.Proofs.Replay.Formats
import TraceReplay.Proofs.Replay.History
import TraceReplay.Proofs.Replay.InPlace
import TraceReplay.Proofs.Replay.Inert
import TraceReplay.Proofs.Replay.Outcome
import TraceReplay.Proofs.Replay.Prefixes
import TraceReplay.Proofs.Replay.Recipes
import TraceReplay.Proofs.Replay.ShownAddresses
import TraceReplay.Proofs.Replay.Slices
import TraceReplay.Proofs.Bytes.CString
import TraceReplay.Proofs.Tally
import TraceReplay.Proofs.Tally.Concatenation
import TraceReplay.Replayer
import TraceReplay.Proofs.Replay.Stores
import TraceReplay.Proofs.Replay.ByteStores
import TraceReplay.Proofs.Replay.Allocations
import TraceReplay.Proofs.Memory.Scopes
import TraceReplay.Proofs.Memory.LiveBytes
import TraceReplay.Proofs.Event.ReadingBack
import TraceReplay.Proofs.AddressGrammar
import TraceReplay.Proofs.AddressText
import TraceReplay.Proofs.Folding
import TraceReplay.Proofs.Replay.Lines
import TraceReplay.Proofs.Json.Faithful
import TraceReplay.Proofs.Wording.Rendering
