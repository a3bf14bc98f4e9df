import SchemaDart.Command.Run
import SchemaDart.Dart.Snapshot
import SchemaDart.Generate
import SchemaDart.Main
import SchemaDart.Proofs.Account
import SchemaDart.Proofs.Command.Outputs
import SchemaDart.Proofs.Deprecations
import SchemaDart.Proofs.Edits
import SchemaDart.Proofs.Erasure
import SchemaDart.Proofs.Idempotence
import SchemaDart.Proofs.Inheritance
import SchemaDart.Proofs.Literal.Integers
import SchemaDart.Proofs.Offences
import SchemaDart.Proofs.Order
import SchemaDart.Proofs.Repetition
import SchemaDart.Proofs.Snapshot.Library
import SchemaDart.Proofs.Text.Comments
import SchemaDart.Source.Grammar.Definition
