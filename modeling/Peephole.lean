import Peephole.BodyStore.Load
import Peephole.Catalog.Load
import Peephole.CommandLine.Run
import Peephole.Main
import Peephole.Proofs.Body.Hazards
import Peephole.Proofs.Body.Splice
import Peephole.Proofs.Body.Tables
import Peephole.Proofs.Cursor.Steps
import Peephole.Proofs.Cursor.Session
import Peephole.Proofs.Cursor.Edit
import Peephole.Proofs.Patch.Outcomes
import Peephole.Proofs.Patch.StackEffect
import Peephole.Proofs.Body.Closed
import Peephole.Proofs.Patcher.Relation
import Peephole.Proofs.Patcher.Safety
import Peephole.Proofs.Patcher.Memory
import Peephole.Proofs.Patcher.Targets
import Peephole.Proofs.Patcher.Accounts
import Peephole.Proofs.Data.Reordering
import Peephole.Proofs.Patcher.Independence
import Peephole.Proofs.Data.Results
import Peephole.Proofs.Patcher.History
import Peephole.Proofs.Selector.Key
import Peephole.Proofs.Opcode.Names
import Peephole.Proofs.Instruction.Written
import Peephole.Proofs.Pattern.Written
import Peephole.Proofs.Catalog.Written
import Peephole.Proofs.Body.Written
import Peephole.Proofs.BodyStore.Written
import Peephole.Proofs.Catalog.Entries
import Peephole.Proofs.Body.Spelling
import Peephole.Proofs.Patch.Spelling
import Peephole.Proofs.Patch.References
import Peephole.Proofs.Patcher.Records
import Peephole.Proofs.CommandLine.Status
import Peephole.Proofs.Body.FirstHazard
import Peephole.Proofs.Body.Spans
import Peephole.Proofs.Pattern.AllMatches
import Peephole.Proofs.Pattern.ExactRules
import Peephole.Proofs.Instruction.Shortest
import Peephole.Proofs.Catalog.Blueprints
import Peephole.Proofs.Catalog.Independence
import Peephole.Proofs.Catalog.OwnMembers
import Peephole.Proofs.Instruction.BareOperands
import Peephole.Proofs.Instruction.LabelPlaces
import Peephole.Proofs.Body.Listing
import Peephole.Proofs.Body.Branches
import Peephole.Proofs.Body.Edits
import Peephole.Proofs.Catalog.Index
import Peephole.Proofs.Member.History
import Peephole.Proofs.Text.Lowercase
import Peephole.Proofs.Opcode.Spellings
import Peephole.Proofs.Instruction.Descriptions
