/-
  The small programs of a host.

  * `Tools.table` are all of them by name.
-/
import Supervisor.Host.Condition
import Supervisor.Host.Tools.Expression
import Supervisor.Host.Tools.Filters
import Supervisor.Host.Tools.Listing
import Supervisor.Host.Tools.Upkeep
import Supervisor.Host.Tools.Waiting

namespace Supervisor.Host.Tools

/-- The small programs, by name. -/
def table : List (String × Tool) :=
  [("echo", echo), ("printf", printf), ("true", fun _ _ _ => {}), ("false", fun _ _ _ => { code := 1 }),
    ("test", Condition.test), ("[", Condition.bracket), ("cat", cat), ("sleep", sleep), ("ls", ls),
    ("dir", dir), ("head", head), ("tail", tail), ("wc", wc), ("tr", tr), ("sort", sort),
    ("uniq", uniq), ("rev", rev), ("tac", tac), ("nl", nl), ("cut", cut), ("seq", seq), ("yes", yes),
    ("basename", basename), ("dirname", dirname), ("pwd", pwd), ("printenv", printenv),
    ("uname", uname), ("whoami", whoami), ("id", identity), ("which", which), ("touch", touch),
    ("mkdir", mkdir), ("rmdir", rmdir), ("rm", rm), ("tee", tee), ("cp", cp), ("mv", mv),
    ("unlink", unlink), ("chmod", chmod), ("expr", Expression.expr)]

/-- What a small program does; one that is not known does nothing. -/
def run (name : String) : Tool := (table.lookup name).getD fun _ _ _ => {}

end Supervisor.Host.Tools
