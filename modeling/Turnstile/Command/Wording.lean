import Turnstile.Command.Run

/-! What a person at the terminal is told, and the status that a run ends with. -/

namespace Turnstile

/-- How the program is called. -/
def CommandLine.usage : String := "\n".intercalate [
  "Usage: keygate [--config PATH] COMMAND",
  "",
  "Commands:",
  "  serve",
  "  hash-password [PASSWORD]",
  "  user add --username NAME [--password PASSWORD] [--role user|owner]",
  "  key add [--label TEXT] [--user USER] [--total-limit N] [--concurrency-limit N]",
  "          [--compat] [--disabled] [--key CREDENTIAL]",
  "  key list"]

namespace LineFault

def message : LineFault → String
  | helpAsked | nothingAsked => CommandLine.usage
  | versionAsked => "keygate 0.1.0"
  | commandMissing => "a command is missing"
  | unknownCommand => "there is no such command"
  | unknownOption => "there is no such option"
  | valueMissing => "an option lacks its value"
  | valueUnfit => "the value of an option does not fit"
  | valueUnasked => "an option that takes no value was given one"
  | optionRepeated => "an option was given twice"
  | optionMissing => "an option is missing"

/-- Answers that were asked for are no failures. -/
def status : LineFault → UInt32
  | helpAsked | versionAsked => 0
  | _ => 2

end LineFault

namespace RunFault

def wording : RunFault → String
  | line fault => fault.message
  | settings => "the configuration cannot be used"
  | host => "the host to listen on is not an IP address"
  | fault => fault.message?.getD ""

def status : RunFault → UInt32
  | line fault => fault.status
  | _ => 1

end RunFault

/-- A password is read from the input when the line leaves it out. -/
def Command.wantsSecret : Command → Bool
  | .hashPassword none => true
  | .addUser a => a.password.isNone
  | _ => false

/-- What is said after a run that went well, besides what it prints. -/
def Command.remark? : Command → Option String
  | .serve => some "ready to serve; listening is left to the program around the service"
  | _ => none

end Turnstile
