import Composer.Text.Lowercase
/-!
# Composer.Clock.Zone

**Time zones.** A zone is an abbreviation or a city with a fixed distance from Universal Time.
Zones do not follow the seasons: summer time is a zone of its own where it has an abbreviation.
-/

namespace Composer.Clock

/-- A zone under one of its names. -/
structure Zone where
  /-- What is typed, in lower case. -/
  key : String
  /-- What an answer shows. -/
  name : String
  /-- How many minutes the zone is ahead of Universal Time. -/
  offset : Int
deriving DecidableEq, Repr

/-- The known zones. -/
def zones : List Zone := [
  ⟨"utc", "UTC", 0⟩,
  ⟨"gmt", "GMT", 0⟩,
  ⟨"wet", "WET", 0⟩,
  ⟨"bst", "BST", 60⟩,
  ⟨"cet", "CET", 60⟩,
  ⟨"cest", "CEST", 120⟩,
  ⟨"eet", "EET", 120⟩,
  ⟨"eest", "EEST", 180⟩,
  ⟨"msk", "MSK", 180⟩,
  ⟨"gst", "GST", 240⟩,
  ⟨"pkt", "PKT", 300⟩,
  ⟨"ist", "IST", 330⟩,
  ⟨"ict", "ICT", 420⟩,
  ⟨"sgt", "SGT", 480⟩,
  ⟨"hkt", "HKT", 480⟩,
  ⟨"awst", "AWST", 480⟩,
  ⟨"jst", "JST", 540⟩,
  ⟨"kst", "KST", 540⟩,
  ⟨"acst", "ACST", 570⟩,
  ⟨"aest", "AEST", 600⟩,
  ⟨"aedt", "AEDT", 660⟩,
  ⟨"nzst", "NZST", 720⟩,
  ⟨"nzdt", "NZDT", 780⟩,
  ⟨"brt", "BRT", -180⟩,
  ⟨"art", "ART", -180⟩,
  ⟨"nst", "NST", -210⟩,
  ⟨"ast", "AST", -240⟩,
  ⟨"edt", "EDT", -240⟩,
  ⟨"est", "EST", -300⟩,
  ⟨"cdt", "CDT", -300⟩,
  ⟨"cst", "CST", -360⟩,
  ⟨"mdt", "MDT", -360⟩,
  ⟨"mst", "MST", -420⟩,
  ⟨"pdt", "PDT", -420⟩,
  ⟨"pst", "PST", -480⟩,
  ⟨"akst", "AKST", -540⟩,
  ⟨"hst", "HST", -600⟩,
  ⟨"new york", "New York", -300⟩,
  ⟨"nyc", "New York", -300⟩,
  ⟨"boston", "Boston", -300⟩,
  ⟨"toronto", "Toronto", -300⟩,
  ⟨"miami", "Miami", -300⟩,
  ⟨"chicago", "Chicago", -360⟩,
  ⟨"mexico city", "Mexico City", -360⟩,
  ⟨"denver", "Denver", -420⟩,
  ⟨"los angeles", "Los Angeles", -480⟩,
  ⟨"la", "Los Angeles", -480⟩,
  ⟨"san francisco", "San Francisco", -480⟩,
  ⟨"sf", "San Francisco", -480⟩,
  ⟨"seattle", "Seattle", -480⟩,
  ⟨"vancouver", "Vancouver", -480⟩,
  ⟨"anchorage", "Anchorage", -540⟩,
  ⟨"honolulu", "Honolulu", -600⟩,
  ⟨"sao paulo", "São Paulo", -180⟩,
  ⟨"são paulo", "São Paulo", -180⟩,
  ⟨"buenos aires", "Buenos Aires", -180⟩,
  ⟨"london", "London", 0⟩,
  ⟨"dublin", "Dublin", 0⟩,
  ⟨"lisbon", "Lisbon", 0⟩,
  ⟨"paris", "Paris", 60⟩,
  ⟨"berlin", "Berlin", 60⟩,
  ⟨"madrid", "Madrid", 60⟩,
  ⟨"barcelona", "Barcelona", 60⟩,
  ⟨"rome", "Rome", 60⟩,
  ⟨"amsterdam", "Amsterdam", 60⟩,
  ⟨"brussels", "Brussels", 60⟩,
  ⟨"zurich", "Zurich", 60⟩,
  ⟨"vienna", "Vienna", 60⟩,
  ⟨"stockholm", "Stockholm", 60⟩,
  ⟨"oslo", "Oslo", 60⟩,
  ⟨"copenhagen", "Copenhagen", 60⟩,
  ⟨"warsaw", "Warsaw", 60⟩,
  ⟨"prague", "Prague", 60⟩,
  ⟨"lagos", "Lagos", 60⟩,
  ⟨"athens", "Athens", 120⟩,
  ⟨"helsinki", "Helsinki", 120⟩,
  ⟨"cairo", "Cairo", 120⟩,
  ⟨"johannesburg", "Johannesburg", 120⟩,
  ⟨"istanbul", "Istanbul", 180⟩,
  ⟨"moscow", "Moscow", 180⟩,
  ⟨"nairobi", "Nairobi", 180⟩,
  ⟨"dubai", "Dubai", 240⟩,
  ⟨"karachi", "Karachi", 300⟩,
  ⟨"mumbai", "Mumbai", 330⟩,
  ⟨"delhi", "Delhi", 330⟩,
  ⟨"new delhi", "New Delhi", 330⟩,
  ⟨"bangalore", "Bangalore", 330⟩,
  ⟨"kolkata", "Kolkata", 330⟩,
  ⟨"bangkok", "Bangkok", 420⟩,
  ⟨"jakarta", "Jakarta", 420⟩,
  ⟨"singapore", "Singapore", 480⟩,
  ⟨"hong kong", "Hong Kong", 480⟩,
  ⟨"beijing", "Beijing", 480⟩,
  ⟨"shanghai", "Shanghai", 480⟩,
  ⟨"taipei", "Taipei", 480⟩,
  ⟨"manila", "Manila", 480⟩,
  ⟨"perth", "Perth", 480⟩,
  ⟨"seoul", "Seoul", 540⟩,
  ⟨"tokyo", "Tokyo", 540⟩,
  ⟨"adelaide", "Adelaide", 570⟩,
  ⟨"sydney", "Sydney", 600⟩,
  ⟨"melbourne", "Melbourne", 600⟩,
  ⟨"brisbane", "Brisbane", 600⟩,
  ⟨"auckland", "Auckland", 720⟩]

/-- The zone that a typed text means. -/
def Zone.typed? (s : List Char) : Option Zone :=
  let key := Text.askedKey s
  zones.find? (·.key.toList = key)

end Composer.Clock
