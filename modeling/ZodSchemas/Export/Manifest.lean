import ZodSchemas.Data.Value
import ZodSchemas.Json.Printer
import ZodSchemas.SchemaUnit.Render
import ZodSchemas.Text.Digest

namespace ZodSchemas.Export

/-!
# Manifests

A manifest lists what an export has written, one record for each write, with the
totals over all records.
-/

open Data

/-- What is known about one written file. -/
structure Record where
  path : String
  absolutePath : String
  size : Nat
  lineCount : Nat
  digest : String
deriving Repr, DecidableEq

def Record.ofFile (file : RenderedFile) (absolutePath : String) : Record :=
  ⟨file.path, absolutePath, file.size, file.lineCount, Text.textDigest file.content⟩

/-- The entry of a record in a written manifest. -/
def Record.value (record : Record) : Value :=
  .object [("relative_path", .text record.path), ("size_bytes", .int record.size),
    ("line_count", .int record.lineCount), ("sha256", .text record.digest)]

/-- The records of an export, when it was made and below which directory. -/
structure Manifest where
  time : String
  directory : String
  records : List Record
deriving Repr, DecidableEq

namespace Manifest

def version : String := "0.1.0"

/-- The number of files. -/
def fileTotal (manifest : Manifest) : Nat :=
  manifest.records.length

/-- The number of bytes of all files. -/
def byteTotal (manifest : Manifest) : Nat :=
  manifest.records.foldl (fun total record => total + record.size) 0

/-- The number of lines of all files. -/
def lineTotal (manifest : Manifest) : Nat :=
  manifest.records.foldl (fun total record => total + record.lineCount) 0

def value (manifest : Manifest) : Value :=
  .object [("generator_version", .text version), ("export_timestamp", .text manifest.time),
    ("output_directory", .text manifest.directory), ("total_files", .int manifest.fileTotal),
    ("total_bytes", .int manifest.byteTotal), ("total_lines", .int manifest.lineTotal),
    ("files", .list (manifest.records.map Record.value))]

def fileName : String := "zodgen-manifest.json"

def file (manifest : Manifest) : RenderedFile :=
  ⟨fileName, Json.pretty 2 manifest.value⟩

end Manifest

end ZodSchemas.Export
