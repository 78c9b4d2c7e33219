import ReactorDeploy.Command.Run
import ReactorDeploy.Main
import ReactorDeploy.Proofs.Federation.Addresses
import ReactorDeploy.Proofs.Federation.Numbering
import ReactorDeploy.Proofs.Net.Allocation
import ReactorDeploy.Proofs.Toml.Quoted
import ReactorDeploy.Proofs.Toml.Scalar
import ReactorDeploy.Proofs.Toml.Reader
import ReactorDeploy.Proofs.Manifest.Document
import ReactorDeploy.Proofs.Manifest.RoundTrip
import ReactorDeploy.Proofs.Files.Path
import ReactorDeploy.Proofs.Files.Writing
import ReactorDeploy.Proofs.Generation.Placement
import ReactorDeploy.Proofs.Generation.Containment
import ReactorDeploy.Proofs.Generation.Listing
import ReactorDeploy.Proofs.Files.Making
import ReactorDeploy.Proofs.Files.Delivery
import ReactorDeploy.Proofs.Generation.Conflict
import ReactorDeploy.Proofs.Generation.Launching
import ReactorDeploy.Proofs.Generation.Overlay
import ReactorDeploy.Proofs.Net.LetterCase
import ReactorDeploy.Proofs.Net.Counting
import ReactorDeploy.Proofs.Generation.Collection
import ReactorDeploy.Proofs.Config.Composition
import ReactorDeploy.Proofs.Generation.Likeness
import ReactorDeploy.Proofs.Generation.Identity
import ReactorDeploy.Proofs.Federation.Enumeration
import ReactorDeploy.Proofs.Command.Generating
import ReactorDeploy.Proofs.Config.Reading
import ReactorDeploy.Proofs.Generation.Assignments
import ReactorDeploy.Proofs.CMake.Arguments
import ReactorDeploy.Proofs.Generation.Commands
import ReactorDeploy.Proofs.Manifest.Counting
import ReactorDeploy.Proofs.Net.Canonical
import ReactorDeploy.Proofs.Net.FirstFree
import ReactorDeploy.Proofs.Generation.Boards
import ReactorDeploy.Proofs.Config.Layering
import ReactorDeploy.Proofs.Files.Stopping
import ReactorDeploy.Proofs.Command.Creating
import ReactorDeploy.Proofs.Command.Template
import ReactorDeploy.Proofs.Board.Lookup
import ReactorDeploy.Proofs.Federation.Reservation
import ReactorDeploy.Proofs.Command.Searching
