import ArchSurvey.Scan.Scanner

/-!
# Registries

The scanners that can be chosen from, each known by its identity.
-/

namespace ArchSurvey

/-- Scanners by identity, in the order of the identities. -/
structure Registry where
  scanners : List (String × Scanner) := []

namespace Registry

/-- The scanner with an identity. -/
def get? (registry : Registry) (id : String) : Option Scanner :=
  registry.scanners.lookup id

/-- The registry with one more scanner, whose identity has to be new. -/
def register (registry : Registry) (scanner : Scanner) : Except ScanError Registry :=
  match registry.get? scanner.id with
  | some _ => .error (.duplicateScanner scanner.id)
  | none => .ok ⟨Keyed.insert scanner.id scanner registry.scanners⟩

/-- The registry of some scanners, the first one of each identity. -/
def ofList (scanners : List Scanner) : Registry :=
  scanners.foldl (fun registry scanner => (registry.register scanner).toOption.getD registry) {}

/-- The identities in order. -/
def ids (registry : Registry) : List String :=
  registry.scanners.map Prod.fst

/-- The scanners by priority and identity. -/
def list (registry : Registry) : List Scanner :=
  (registry.scanners.map Prod.snd).mergeSort Scanner.le

/-- The scanners that apply to a project, by priority and identity. -/
def applicable (registry : Registry) (context : Context) : List Scanner :=
  registry.list.filter fun scanner => scanner.isApplicable context

end Registry

end ArchSurvey
