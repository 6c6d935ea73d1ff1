import OpenApiIR.Document.Value
import OpenApiIR.Text.Lines

/-! Tables of text, as records and as lines. -/

namespace OpenApiIR

structure Table where
  title : String
  headers : List String
  rows : List (List String)
  deriving DecidableEq, Repr

namespace Table

/-- A row under its headers. Of two cells under one header the later counts; a cell without a header
is left out, and so is a header without a cell. -/
def record (headers row : List String) : Entries :=
  Entries.ofPairs ((headers.zip row).map fun (h, c) => (.str h, .str c))

def records (t : Table) : Value := .seq (t.rows.map fun row => .map (record t.headers row))

def line (cells : List String) : String := Text.join "\t" cells

def lines (t : Table) : List String := (t.headers :: t.rows).map line

end Table

end OpenApiIR
