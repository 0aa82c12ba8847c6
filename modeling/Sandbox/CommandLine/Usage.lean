namespace Sandbox.CommandLine

inductive Topic
  | program
  | run
  | check
  | help
deriving DecidableEq

namespace Topic

def ofArguments? : List String → Option Topic
  | [] => some .program
  | ["run"] => some .run
  | ["check"] => some .check
  | ["help"] => some .help
  | _ => none

def about : Topic → String
  | .program => "Run untrusted snippets in a sandboxed worker process"
  | .run => "Run a snippet and print its captured output"
  | .check => "Start a worker and wait for its engine to become ready"
  | .help => "Print this message or the help of the given subcommand(s)"

def usage : Topic → String
  | .program => "Usage: warden [OPTIONS] <COMMAND>"
  | .run => "Usage: warden run [OPTIONS] <FILE>"
  | .check => "Usage: warden check [OPTIONS]"
  | .help => "Usage: warden help [COMMAND]"

def contextLines : String :=
  "      --engine <PATH>      Engine library to load in the worker\n"
    ++ "      --worker <PATH>      Worker binary to spawn"
    ++ " (default: WARDEN_WORKER_PATH, then lookup)\n"
    ++ "      --init-timeout <MS>  Readiness budget in milliseconds\n"
    ++ "  -v, --verbose            Enable verbose logging\n"
    ++ "  -h, --help               Print help\n"

def details : Topic → String
  | .program =>
    "Commands:\n"
      ++ "  run    " ++ about .run ++ "\n"
      ++ "  check  " ++ about .check ++ "\n"
      ++ "  help   " ++ about .help ++ "\n\n"
      ++ "Options:\n"
      ++ "  -v, --verbose  Enable verbose logging\n"
      ++ "  -h, --help     Print help\n"
      ++ "  -V, --version  Print version\n"
  | .run =>
    "Arguments:\n"
      ++ "  <FILE>  Path to the snippet, or a hyphen to read it from stdin\n\n"
      ++ "Options:\n"
      ++ "      --timeout <MS>       Execution budget in milliseconds\n"
      ++ "      --json               Print the output as a JSON object instead of raw streams\n"
      ++ contextLines
  | .check => "Options:\n" ++ contextLines
  | .help => "Arguments:\n  [COMMAND]  Command to print the help of\n"

def text (topic : Topic) : String :=
  topic.about ++ "\n\n" ++ topic.usage ++ "\n\n" ++ topic.details

def complaint : String := usage .program ++ "\n\nFor more information, try '--help'.\n"

end Topic

end Sandbox.CommandLine
