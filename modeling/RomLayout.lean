import RomLayout.Region
import RomLayout.Numeral
import RomLayout.Address
import RomLayout.Address.Hex
import RomLayout.Path
import RomLayout.FileSystem
import RomLayout.Error
import RomLayout.Entry
import RomLayout.Section.Basic
import RomLayout.Section.Resolve
import RomLayout.Occupancy
import RomLayout.Include
import RomLayout.Layout
import RomLayout.Json.Basic
import RomLayout.Json.Text
import RomLayout.Json.Fields
import RomLayout.Snapshot.Basic
import RomLayout.Snapshot.Writer
import RomLayout.Snapshot.Reader
import RomLayout.Yaml.Scalar
import RomLayout.Yaml.Token
import RomLayout.Yaml.Node
import RomLayout.Yaml.Number
import RomLayout.Yaml.Fields
import RomLayout.Description.Basic
import RomLayout.Description.Reader
import RomLayout.Description.Writer
import RomLayout.Command.Arguments
import RomLayout.Command.Run
import RomLayout.Main
import RomLayout.Proofs.Binding
import RomLayout.Proofs.FileSystem
import RomLayout.Proofs.Numeral
import RomLayout.Proofs.History
import RomLayout.Proofs.Placement
import RomLayout.Proofs.Resolution
import RomLayout.Proofs.Freshness
import RomLayout.Proofs.Occupancy
import RomLayout.Proofs.Overlap
import RomLayout.Proofs.Building
import RomLayout.Proofs.Layout.History
import RomLayout.Proofs.Policy
import RomLayout.Proofs.Image
import RomLayout.Proofs.Entries
import RomLayout.Proofs.References
import RomLayout.Proofs.Frames
import RomLayout.Proofs.Snapshot.Settled
import RomLayout.Proofs.Snapshot.Consistency
import RomLayout.Proofs.Independence
import RomLayout.Proofs.Assembly
import RomLayout.Proofs.Json.RoundTrip
import RomLayout.Proofs.Snapshot.RoundTrip
import RomLayout.Proofs.Layout.Order
import RomLayout.Proofs.Command.Delivery
import RomLayout.Proofs.Capacity
import RomLayout.Proofs.Layout.Resolution
import RomLayout.Proofs.Checked.Section
import RomLayout.Proofs.Checked.Layout
import RomLayout.Proofs.Layout.Refusal
import RomLayout.Proofs.Layout.Inclusion
import RomLayout.Proofs.Snapshot.Meaning
import RomLayout.Proofs.Description.Sections
import RomLayout.Proofs.Interruption
import RomLayout.Proofs.Acceptance
import RomLayout.Proofs.Path
import RomLayout.Proofs.Confinement
import RomLayout.Proofs.Command.Arguments
import RomLayout.Proofs.Command.Strictness
import RomLayout.Proofs.Splicing
import RomLayout.Proofs.Summary
import RomLayout.Proofs.Directory
import RomLayout.Proofs.Ledger
