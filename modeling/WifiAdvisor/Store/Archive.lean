import WifiAdvisor.Document.Json.Printer
import WifiAdvisor.Document.Json.Tree
import WifiAdvisor.Document.Schema
import WifiAdvisor.Store.Rows
/-!
Rows of a store as the text of a file.
-/

namespace WifiAdvisor.Store

open Document

namespace Row

def toValue (r : Row) : Value := .object [
  ("key", .string r.key),
  ("ssid", .string r.ssid),
  ("updated_at", .nat r.updatedAt.toNat)]

def schema : Schema Row :=
  (((Schema.pure Row.mk).field (.required "key" Decoder.string)).field
    (.required "ssid" Decoder.string)).field
    (.required "updated_at" Decoder.uint64)

end Row

namespace Rows

def toText (t : Rows) : String := Json.print (.object [("rows", .list Row.toValue t.rows)])

def ofText? (text : String) : Option Rows :=
  let schema := (Schema.pure Rows.mk).field
    (.required "rows" (Decoder.list (Row.schema.record "row")))
  (Json.decode (schema.record "rows") text).toOption

end Rows

end WifiAdvisor.Store
