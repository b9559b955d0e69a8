import Composer.Text.Blank
import Composer.Text.Lowercase
/-!
# Composer.Measure.Unit

**Units of measure.** A unit belongs to one dimension and has one symbol and any number of other
names. Names are compared in lower case, and a name may follow the word *degree* or *degrees*.
`Unit.convert` goes through the base unit of the dimension; temperatures go through degrees
Celsius, because their scales do not share a zero.
-/

namespace Composer.Measure

/-- What a unit measures. No conversion crosses dimensions. -/
inductive Dimension where
  | length
  | mass
  | temperature
  | volume
  | time
  | data
  | speed
  | area
deriving DecidableEq, Repr

namespace Dimension

/-- Every dimension. -/
def all : List Dimension :=
  [length, mass, temperature, volume, time, data, speed, area]

/-- The name that an answer carries. -/
def name : Dimension → String
  | length => "length"
  | mass => "mass"
  | temperature => "temperature"
  | volume => "volume"
  | time => "time"
  | data => "data"
  | speed => "speed"
  | area => "area"

/-- The dimension with a name. -/
def named? (s : String) : Option Dimension :=
  all.find? (·.name == s)

end Dimension

/-- A unit of measure. -/
structure Unit where
  /-- The name that answers use. -/
  symbol : String
  /-- Other names, in lower case. -/
  aliases : List String
  /-- What it measures. -/
  dimension : Dimension
  /-- How many base units of the dimension it holds; of no use for temperatures. -/
  factor : Float
deriving DecidableEq

/-- A unit in the order of the columns of the table. -/
def unit (symbol : String) (aliases : List String) (dimension : Dimension) (factor : Float) :
    Unit :=
  ⟨symbol, aliases, dimension, factor⟩

/-- The known units. The base units are metre, kilogram, litre, second, byte, metre per second and
square metre. -/
def units : List Unit := [
  unit "mm" ["millimeter", "millimeters", "millimetre", "millimetres"] .length 0.001,
  unit "cm" ["centimeter", "centimeters", "centimetre", "centimetres"] .length 0.01,
  unit "m" ["meter", "meters", "metre", "metres"] .length 1,
  unit "km" ["kms", "kilometer", "kilometers", "kilometre", "kilometres"] .length 1000,
  unit "in" ["inch", "inches", "\""] .length 0.0254,
  unit "ft" ["foot", "feet", "'"] .length 0.3048,
  unit "yd" ["yard", "yards", "yds"] .length 0.9144,
  unit "mi" ["mile", "miles"] .length 1609.344,
  unit "nmi" ["nautical mile", "nautical miles"] .length 1852,
  unit "mg" ["milligram", "milligrams"] .mass 1e-6,
  unit "g" ["gram", "grams", "gr"] .mass 0.001,
  unit "kg" ["kgs", "kilo", "kilos", "kilogram", "kilograms"] .mass 1,
  unit "t" ["tonne", "tonnes", "metric ton", "metric tons"] .mass 1000,
  unit "oz" ["ounce", "ounces"] .mass 0.028349523125,
  unit "lb" ["lbs", "pound", "pounds"] .mass 0.45359237,
  unit "st" ["stone", "stones"] .mass 6.35029318,
  unit "°C" ["c", "°c", "celsius", "degc"] .temperature 1,
  unit "°F" ["f", "°f", "fahrenheit", "degf"] .temperature 1,
  unit "K" ["k", "kelvin", "kelvins"] .temperature 1,
  unit "ml" ["milliliter", "milliliters", "millilitre", "millilitres"] .volume 0.001,
  unit "l" ["liter", "liters", "litre", "litres"] .volume 1,
  unit "gal" ["gallon", "gallons"] .volume 3.785411784,
  unit "qt" ["quart", "quarts"] .volume 0.946352946,
  unit "pt" ["pint", "pints"] .volume 0.473176473,
  unit "cup" ["cups"] .volume 0.2365882365,
  unit "fl oz" ["floz", "fluid ounce", "fluid ounces"] .volume 0.0295735295625,
  unit "tbsp" ["tablespoon", "tablespoons"] .volume 0.01478676478125,
  unit "tsp" ["teaspoon", "teaspoons"] .volume 0.00492892159375,
  unit "ms" ["millisecond", "milliseconds"] .time 0.001,
  unit "s" ["sec", "secs", "second", "seconds"] .time 1,
  unit "min" ["mins", "minute", "minutes"] .time 60,
  unit "h" ["hr", "hrs", "hour", "hours"] .time 3600,
  unit "day" ["d", "days"] .time 86400,
  unit "week" ["wk", "wks", "weeks"] .time 604800,
  unit "month" ["months"] .time 2629746,
  unit "year" ["yr", "yrs", "years"] .time 31556952,
  unit "bit" ["bits"] .data 0.125,
  unit "B" ["b", "byte", "bytes"] .data 1,
  unit "KB" ["kb", "kilobyte", "kilobytes"] .data 1e3,
  unit "MB" ["mb", "megabyte", "megabytes"] .data 1e6,
  unit "GB" ["gb", "gigabyte", "gigabytes"] .data 1e9,
  unit "TB" ["tb", "terabyte", "terabytes"] .data 1e12,
  unit "KiB" ["kib", "kibibyte", "kibibytes"] .data 1024,
  unit "MiB" ["mib", "mebibyte", "mebibytes"] .data 1048576,
  unit "GiB" ["gib", "gibibyte", "gibibytes"] .data 1073741824,
  unit "m/s" ["mps", "meters per second"] .speed 1,
  unit "km/h" ["kmh", "kph", "kmph", "kilometers per hour"] .speed (1 / 3.6),
  unit "mph" ["miles per hour"] .speed 0.44704,
  unit "kn" ["knot", "knots", "kt"] .speed 0.514444,
  unit "ft/s" ["fps", "feet per second"] .speed 0.3048,
  unit "cm²" ["cm2", "sq cm", "square centimeters"] .area 1e-4,
  unit "m²" ["m2", "sq m", "square meter", "square meters"] .area 1,
  unit "km²" ["km2", "sq km", "square kilometer", "square kilometers"] .area 1e6,
  unit "ft²" ["ft2", "sq ft", "square foot", "square feet"] .area 0.09290304,
  unit "mi²" ["mi2", "sq mi", "square mile", "square miles"] .area 2589988.110336,
  unit "ha" ["hectare", "hectares"] .area 10000,
  unit "acre" ["acres", "ac"] .area 4046.8564224]

namespace Unit

/-- True when `key`, in lower case, is the symbol or another name of the unit. -/
def answersTo (key : List Char) (u : Unit) : Bool :=
  Text.lower u.symbol.toList = key || u.aliases.any fun name => name.toList = key

/-- Removes the word *degree* or *degrees* before the name of a scale. -/
def dropDegrees (key : List Char) : List Char :=
  if "degrees ".toList.isPrefixOf key then key.drop 8
  else if "degree ".toList.isPrefixOf key then key.drop 7
  else key

/-- The unit that a typed name means. -/
def typed? (s : List Char) : Option Unit :=
  let key := Text.trim (dropDegrees (Text.lower (Text.trim s)))
  units.find? (answersTo key)

/-- A temperature in degrees Celsius. -/
def toCelsius (symbol : String) (x : Float) : Float :=
  match symbol with
  | "°F" => (x - 32) * 5 / 9
  | "K" => x - 273.15
  | _ => x

/-- A temperature from degrees Celsius. -/
def ofCelsius (symbol : String) (x : Float) : Float :=
  match symbol with
  | "°F" => x * 9 / 5 + 32
  | "K" => x + 273.15
  | _ => x

/-- An amount `x` of the unit `u` in the unit `v` of the same dimension. -/
def convert (x : Float) (u v : Unit) : Float :=
  if u.dimension = .temperature then ofCelsius v.symbol (toCelsius u.symbol x)
  else x * u.factor / v.factor

/-- The symbols of the other units of the dimension, in the order of the table. -/
def others (u : Unit) : List String :=
  (units.filter fun v => v.dimension = u.dimension && v.symbol ≠ u.symbol).map (·.symbol)

end Unit

end Composer.Measure
