import FirmataSketch.Text.Lines

/-! The usage and help texts of the command line. -/

namespace FirmataSketch.Command

def programName : String := "firmatabuilder"

/-- The usage lines of a parser, and the help lines after them. -/
structure Manual where
  program : String
  usage : List String
  details : List String

def Manual.usageText (m : Manual) : String := Text.unlines m.usage

def Manual.helpText (m : Manual) : String := Text.unlines (m.usage ++ m.details)

namespace Manual

def main : Manual where
  program := programName
  usage := ["usage: firmatabuilder [-h] [-v] \x7bgenerate,features,serve\x7d ..."]
  details :=
    ["",
     "Feature selection → ConfiguredFirmata sketch (.ino)",
     "",
     "positional arguments:",
     "  \x7bgenerate,features,serve\x7d",
     "    generate            Generate a sketch from selected features",
     "    features            List the features in the catalog",
     "    serve               Start the web server",
     "",
     "options:",
     "  -h, --help            show this help message and exit",
     "  -v, --verbose         Enable debug logging"]

def generate : Manual where
  program := programName ++ " generate"
  usage :=
    ["usage: firmatabuilder generate [-h] [--selection SELECTION]",
     "                               [--feature FEATURES] [--filename FILENAME]",
     "                               [--baud BAUD] [--catalog CATALOG] [--out OUT]",
     "                               [--stdout]"]
  details :=
    ["",
     "options:",
     "  -h, --help            show this help message and exit",
     "  --selection SELECTION",
     "                        Path to a selection JSON file",
     "  --feature FEATURES    Feature to include (repeatable, in order); defaults to",
     "                        the reference set",
     "  --filename FILENAME   Sketch name without extension",
     "  --baud BAUD           Serial baud rate",
     "  --catalog CATALOG     Directory of feature JSON files",
     "  --out OUT             Output directory",
     "  --stdout              Print the sketch instead of writing it"]

def features : Manual where
  program := programName ++ " features"
  usage := ["usage: firmatabuilder features [-h] [--catalog CATALOG]"]
  details :=
    ["",
     "options:",
     "  -h, --help         show this help message and exit",
     "  --catalog CATALOG  Directory of feature JSON files"]

def serve : Manual where
  program := programName ++ " serve"
  usage := ["usage: firmatabuilder serve [-h] [--host HOST] [--port PORT]"]
  details :=
    ["",
     "options:",
     "  -h, --help   show this help message and exit",
     "  --host HOST  Host to bind",
     "  --port PORT  Port to bind"]

end Manual

end FirmataSketch.Command
