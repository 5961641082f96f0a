import PacketLog.Error
import PacketLog.Text.JsonText

/-!
# How the program reports an error

To a terminal as lines of text, to anything else as one JSON object.  An error
without a message gets the one its kind stands for.
-/

namespace PacketLog

def ErrorKind.usualMessage : ErrorKind → String
  | internal => "internal error"
  | usage => "usage error"
  | busy => "resource is busy"
  | io => "i/o error"
  | outOfMemory => "out of memory"
  | interrupted => "interrupted"

namespace Error

def reportedMessage (error : Error) : String :=
  error.message.getD error.kind.usualMessage

/-- The lines shown on a terminal; the offset is left out. -/
def reportLines (error : Error) : List String :=
  ["error: " ++ error.reportedMessage]
    ++ (error.hint.map ("hint: " ++ ·)).toList
    ++ (error.path.map ("path: " ++ ·)).toList
    ++ error.causes.map ("caused by: " ++ ·)

def reportText (error : Error) : String := String.intercalate "\n" error.reportLines

/-- The members of the reported object in the order of their keys; those not known are left out. -/
def reportMembers (error : Error) : List (String × String) :=
  (if error.causes = [] then []
    else [("causes", JsonText.array (error.causes.map JsonText.quoted))])
    ++ (error.hint.map fun hint => ("hint", JsonText.quoted hint)).toList
    ++ [("kind", JsonText.quoted error.kind.name),
        ("message", JsonText.quoted error.reportedMessage)]
    ++ (error.offset.map fun offset => ("offset", toString offset)).toList
    ++ (error.path.map fun path => ("path", JsonText.quoted path)).toList

def reportJson (error : Error) : String :=
  JsonText.object [("error", JsonText.object error.reportMembers)]

end Error

end PacketLog
