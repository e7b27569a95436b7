import PagedHeap.Error

/-!
# File names

A file name is one component of a path: it names a file of the directory and nothing outside it.
-/

namespace PagedHeap

/-- The longest file name, in bytes. -/
def maxFileNameSize : Nat := 64

/-- The reasons for which a text is no file name: it is empty, too long, a name of a directory, or
holds a separator or the end of a string. -/
def FileName.isValid (name : String) : Bool :=
  !(name.isEmpty || maxFileNameSize < name.utf8ByteSize || name == "." || name == ".." ||
    name.toList.any fun c => c == '/' || c == '\\' || c == '\x00')

/-- Refuses a text that is no file name. -/
def FileName.check (name : String) : Result Unit :=
  if isValid name then .ok () else .refuse (.invalidFileName name)

end PagedHeap
