import FilterQuery.Filter.CallText
import FilterQuery.Main
import FilterQuery.Proofs.Calendar.Format
import FilterQuery.Proofs.Config.Accepted
import FilterQuery.Proofs.Config.Listing
import FilterQuery.Proofs.Config.Tags
import FilterQuery.Proofs.Filter.Json
import FilterQuery.Proofs.Filter.Search
import FilterQuery.Proofs.Mongo.Operand
import FilterQuery.Proofs.Mongo.Search
import FilterQuery.Proofs.Number.Decimal
import FilterQuery.Proofs.Query.Brackets
import FilterQuery.Proofs.Query.Cursor
import FilterQuery.Proofs.Query.FreeText
import FilterQuery.Proofs.Query.Shape
import FilterQuery.Proofs.Query.Stopping
import FilterQuery.Proofs.Query.Stray
import FilterQuery.Proofs.Query.Termination
import FilterQuery.Proofs.Schema.Composition
import FilterQuery.Proofs.Schema.FieldPaths
import FilterQuery.Proofs.Schema.Json
import FilterQuery.Proofs.Sql.Column
import FilterQuery.Proofs.Sql.Lines
import FilterQuery.Proofs.Sql.NullTest
import FilterQuery.Proofs.Sql.Placeholders
import FilterQuery.Proofs.Sql.Search
import FilterQuery.Proofs.Value.ReadBack
import FilterQuery.Query.Lookahead
