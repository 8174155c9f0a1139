/-!
# Version
-/

namespace MiniLex

/-- The version under which the library presents itself. -/
def version : String := "0.1.0"

end MiniLex
