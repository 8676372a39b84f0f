import Chronicle.Json.Basic

set_option autoImplicit false

/-!
# Health reports
-/

namespace Chronicle

/-- Whether a component can serve requests, details about it, and where it keeps its data. -/
structure HealthReport where
  isUp : Bool
  details : Json
  urls : List String

namespace HealthReport

/-- The report of a component that serves requests. -/
def up (details : Json) (urls : List String) : HealthReport := ⟨true, details, urls⟩

/-- The report of a component that does not, and why. -/
def down (reason : String) (urls : List String) : HealthReport := ⟨false, .string reason, urls⟩

/-- The record of a report. -/
def toJson (report : HealthReport) : Json :=
  .object [("isUp", .bool report.isUp), ("details", report.details),
    ("urls", .array (report.urls.map .string))]

end HealthReport

end Chronicle
