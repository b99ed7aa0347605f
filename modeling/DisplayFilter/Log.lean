/-!
# Log records

Records have a level, the name of the part that wrote them and a message. A record is shown when its
level is no lower than the threshold; a line of the log shows the time stamp, the part, the level and
the message.
-/

namespace DisplayFilter.Log

inductive Level where
  | debug
  | info
  | warning
  | error
  deriving DecidableEq, Repr, Inhabited

namespace Level

/-- The number a threshold is compared with. -/
def number : Level → Int
  | .debug => 10
  | .info => 20
  | .warning => 30
  | .error => 40

def name : Level → String
  | .debug => "DEBUG"
  | .info => "INFO"
  | .warning => "WARNING"
  | .error => "ERROR"

end Level

structure Record where
  logger : String
  level : Level
  message : String
  deriving DecidableEq, Repr, Inhabited

namespace Record

/-- Records of the level of the threshold and above are shown. -/
def isShown (threshold : Int) (record : Record) : Bool :=
  threshold ≤ record.level.number

/-- A line of the log, with the line feed that ends it. -/
def line (stamp : String) (record : Record) : String :=
  stamp ++ " - " ++ record.logger ++ " - " ++ record.level.name ++ " - " ++ record.message ++ "\n"

end Record

end DisplayFilter.Log
