import BoundSql.Main
import BoundSql.Proofs.Clause.Assigning
import BoundSql.Proofs.Clause.Association
import BoundSql.Proofs.Clause.Failure
import BoundSql.Proofs.Clause.Loading
import BoundSql.Proofs.Clause.Numbering
import BoundSql.Proofs.Clause.Placeholders
import BoundSql.Proofs.Clause.Places
import BoundSql.Proofs.Clause.Refusing
import BoundSql.Proofs.Clause.Reloading
import BoundSql.Proofs.Clause.Filtering
import BoundSql.Proofs.Clause.Selecting
import BoundSql.Proofs.Clause.Values
import BoundSql.Proofs.Clause.Froms
import BoundSql.Proofs.Clause.Mentions
import BoundSql.Proofs.CommandLine.Columns
import BoundSql.Proofs.CommandLine.Values
import BoundSql.Proofs.Filter.Rendering
import BoundSql.Proofs.Condition.Building
import BoundSql.Proofs.Condition.Complement
import BoundSql.Proofs.Condition.Negation
import BoundSql.Proofs.Parameter.Calls
import BoundSql.Proofs.Quoting
import BoundSql.Proofs.Schema.Declaration
import BoundSql.Proofs.Schema.Document
import BoundSql.Proofs.Clause.Requoting
import BoundSql.Proofs.Clause.Joining
import BoundSql.Proofs.Clause.Regrouping
import BoundSql.Proofs.Clause.Linking
import BoundSql.Proofs.Condition.Involution
import BoundSql.Proofs.Condition.Conjoining
import BoundSql.Proofs.Schema.Reference
import BoundSql.Proofs.Parameter.Entries
import BoundSql.Proofs.Parameter.Search
import BoundSql.Proofs.Clause.Spreading
