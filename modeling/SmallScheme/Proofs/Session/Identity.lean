import SmallScheme.Proofs.Session.History

/-!
# The identity of objects

Strings, pairs and procedures are told apart by their marks. That works because a mark stands
for one object throughout a session: whatever makes an object gives it a mark that no object
bears yet, and no object is ever changed. Symbols are told apart by their names, which is
sound because a symbol table has one place for each name.
-/

namespace SmallScheme

open Object Sequencing Moment Evaluation BigStep Relation

/-! ### Symbols -/

namespace SymbolTable

end SymbolTable

/-! ### Values -/

namespace Value

end Value

namespace Moment

variable {w : Moment}

end Moment

/-! ### Sessions -/

end SmallScheme
