import Depends.Report.Document
import Depends.Text.Lower
import Depends.Yaml.Block

/-!
The encodings of a document by name.
-/
namespace Depends.Report

/-- Encodes a document in a format whose name may have any case. -/
def Document.encode (d : Document) (format : String) : Except Failure String :=
  match Text.lower format with
  | "json" => .ok d.data.json
  | "yaml" | "yml" => .ok (Yaml.document d.data)
  | _ => .error (.plain ("unsupported document format " ++ Text.quoted format))

end Depends.Report
