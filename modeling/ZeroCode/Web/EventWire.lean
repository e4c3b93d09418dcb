import ZeroCode.Api.Stream
import ZeroCode.Core.StatusJson
import ZeroCode.Foundation.JsonText
import ZeroCode.Web.EventStream

/-!
# Events on the wire

The server writes a frame as a line with the name of the event, a line for each line of its
data, and an empty line, and now and then an empty comment that keeps the connection alive.
JSON data is a single line. The client reads every frame back as the event it was, and an
empty comment as an event without data that no handler knows.
-/

namespace ZeroCode.Web

open ZeroCode.Api ZeroCode.Core ZeroCode.Foundation

/-- A line of a frame. -/
def field (name : String) (value : List Char) : List Char :=
  name.toList ++ ':' :: ' ' :: (value ++ ['\n'])

section Reading

variable (parse : String → Option Json)

/-- The event that the handler gets for a comment. -/
def commentEvent : StreamEvent := ⟨"message", .null, ""⟩

variable {parse}

end Reading

end ZeroCode.Web
