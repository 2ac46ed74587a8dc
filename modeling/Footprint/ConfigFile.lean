import Footprint.Files
import Footprint.Forms

/-!
# Configuration files

Configurations as JSON text and in files. Where no file is named, a file of a fixed name in the
working directory is read if it is there.
-/

namespace Footprint.Config

/-- The file that is read where none is named. -/
def standardFile : String := "addrprobe.json"

/-- The configuration that a text writes. What it leaves out has its standard value. -/
def ofText (text : String) : Except ConfigCause Config :=
  (Forms.config.codec.parse text).mapError .unparsable

def readText (files : Files) (path : String) : Except FileCause String := do
  let bytes ← files.read path
  match String.fromUTF8? bytes with
  | some text => return text
  | none => throw .notText

def load (files : Files) (path : String) : Except ConfigCause Config := do
  let text ← (readText files path).mapError (.unreadable path)
  ofText text

/-- The configuration in the standard file, or the standard one if there is no such file. -/
def loadStandard (files : Files) : Except ConfigCause Config :=
  match files.find? (Files.home ++ [standardFile]) with
  | some _ => load files standardFile
  | none => .ok standard

end Footprint.Config
