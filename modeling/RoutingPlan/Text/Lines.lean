-- The lines of a text. A line ends with a line feed, and a carriage return just before the line
-- feed belongs to the end of the line.

namespace RoutingPlan.Text

-- A line without the carriage return that can stand at its end.
def dropReturn (line : List Char) : List Char :=
  if line.getLast? = some '\r' then line.dropLast else line

-- What stands between the line feeds. After the last one there is a line only if anything stands
-- there; it keeps a carriage return at its end.
def lines (s : String) : List String :=
  let pieces := s.toList.splitOn '\n'
  let rest := pieces.getLastD []
  let ended := pieces.dropLast.map dropReturn
  (if rest = [] then ended else ended ++ [rest]).map String.ofList

end RoutingPlan.Text
