import Reckoner.Unit.Registry

/-!
# The catalogue of units

The units known by default, by kind of quantity, and the registry made of them (`standardUnits`).
Factors are exact except those of the angles, which carry π to the working precision.
-/

namespace Reckoner.Catalogue

def fixed (symbol name : String) (dimension : Dimension) (factor : Number) (category : String) :
    CatalogueEntry :=
  .unit (.new symbol name dimension factor category) .fixed

/-- A unit that takes multiples. -/
def scaled (symbol name : String) (dimension : Dimension) (factor : Number) (category : String)
    (scaling : Scaling := .decimal) : CatalogueEntry :=
  .unit (.new symbol name dimension factor category) scaling

/-- A unit of a whole number of calendar months. -/
def calendar (symbol name : String) (factor : Number) (months : Int) : CatalogueEntry :=
  .unit { MeasureUnit.new symbol name .time factor "time" with calendarMonths := some months }
    .fixed

/-- A temperature scale whose zero is not absolute zero. -/
def shifted (symbol name : String) (factor offset : Number) : CatalogueEntry :=
  .unit { MeasureUnit.new symbol name .temperature factor "temperature" with offset := offset }
    .fixed

def timesPi (x : Number) : Number := (Number.pi workingPrecision).mul x

def lengthUnits : List CatalogueEntry := [
  scaled "m" "meter" .length (.ofInt 1) "length",
  fixed "in" "inch" .length (.ofScaled 254 (-4)) "length",
  fixed "ft" "foot" .length (.ofScaled 3048 (-4)) "length",
  fixed "yd" "yard" .length (.ofScaled 9144 (-4)) "length",
  fixed "mi" "mile" .length (.ofScaled 1609344 (-3)) "length",
  fixed "nmi" "nautical mile" .length (.ofInt 1852) "length",
  fixed "au" "astronomical unit" .length (.ofInt 149597870700) "length",
  fixed "ly" "light year" .length (.ofInt 9460730472580800) "length",
  fixed "pc" "parsec" .length (.ofInt 30856775814913673) "length",
  fixed "Å" "angstrom" .length (.ofScaled 1 (-10)) "length",
  .aliases "m" ["metre"],
  .aliases "in" ["inches"],
  .aliases "ft" ["feet"],
  .aliases "ly" ["lightyear"],
  .aliases "Å" ["ångström"]]

/-- Masses. The kilogram is the coherent unit, and multiples attach to the gram. -/
def massUnits : List CatalogueEntry := [
  fixed "kg" "kilogram" .mass (.ofInt 1) "mass",
  scaled "g" "gram" .mass (.ofRatio 1 1000) "mass",
  fixed "t" "tonne" .mass (.ofInt 1000) "mass",
  fixed "lb" "pound" .mass (.ofScaled 45359237 (-8)) "mass",
  fixed "oz" "ounce" .mass (.ofScaled 28349523125 (-12)) "mass",
  fixed "st" "stone" .mass (.ofScaled 635029318 (-8)) "mass",
  fixed "ton" "short ton" .mass (.ofScaled 90718474 (-5)) "mass",
  fixed "ct" "carat" .mass (.ofScaled 2 (-4)) "mass",
  fixed "gr" "grain" .mass (.ofScaled 6479891 (-11)) "mass",
  .aliases "kg" ["kilo", "kilos", "kgs"],
  .aliases "g" ["gramme"],
  .aliases "t" ["metric ton"],
  .aliases "lb" ["lbs"]]

/-- Times. The lengths of calendar units are averages of the Gregorian calendar; shifting a date by
them counts whole months. -/
def timeUnits : List CatalogueEntry := [
  scaled "s" "second" .time (.ofInt 1) "time",
  fixed "min" "minute" .time (.ofInt 60) "time",
  fixed "h" "hour" .time (.ofInt 3600) "time",
  fixed "d" "day" .time (.ofInt 86400) "time",
  fixed "wk" "week" .time (.ofInt 604800) "time",
  fixed "fortnight" "fortnight" .time (.ofInt 1209600) "time",
  calendar "mo" "month" (.ofInt 2629746) 1,
  calendar "yr" "year" (.ofInt 31556952) 12,
  calendar "decade" "decade" (.ofInt 315569520) 120,
  calendar "century" "century" (.ofInt 3155695200) 1200,
  .aliases "s" ["sec", "secs"],
  .aliases "min" ["mins"],
  .aliases "h" ["hr", "hrs"],
  .aliases "wk" ["wks"],
  .aliases "yr" ["yrs", "y", "annum"],
  .aliases "century" ["centuries"]]

/-- Temperatures. Two of the scales have an offset: `K = C + 273.15` and
`K = (F + 459.67) * 5/9`. -/
def temperatureUnits : List CatalogueEntry := [
  scaled "K" "kelvin" .temperature (.ofInt 1) "temperature",
  shifted "°C" "celsius" (.ofInt 1) (.ofRatio 27315 100),
  shifted "°F" "fahrenheit" (.ofRatio 5 9) (.ofRatio 45967 180),
  fixed "°R" "rankine" .temperature (.ofRatio 5 9) "temperature",
  .aliases "°C" ["degC", "centigrade", "degree celsius", "degrees celsius"],
  .aliases "°F" ["degF", "degree fahrenheit", "degrees fahrenheit"],
  .aliases "°R" ["degR"]]

def currentUnits : List CatalogueEntry := [
  scaled "A" "ampere" .current (.ofInt 1) "current",
  .aliases "A" ["amp", "amps"]]

def amountUnits : List CatalogueEntry := [
  scaled "mol" "mole" .amount (.ofInt 1) "amount"]

/-- Light. The lumen is `cd·sr`, and the steradian has no dimension. -/
def luminosityUnits : List CatalogueEntry := [
  scaled "cd" "candela" .luminosity (.ofInt 1) "luminosity",
  fixed "lm" "lumen" .luminosity (.ofInt 1) "luminosity",
  fixed "lx" "lux" .illuminance (.ofInt 1) "illuminance"]

def areaUnits : List CatalogueEntry := [
  .product "square meter" [("m", 2)] ["m2", "m²", "sqm", "square metre"],
  .product "square kilometer" [("km", 2)] ["km2", "km²"],
  .product "square centimeter" [("cm", 2)] ["cm2", "cm²"],
  .product "square millimeter" [("mm", 2)] ["mm2", "mm²"],
  .product "square foot" [("ft", 2)] ["ft2", "ft²", "sqft", "sq ft", "square feet"],
  .product "square inch" [("in", 2)] ["in2", "in²"],
  .product "square yard" [("yd", 2)] ["yd2", "yd²"],
  .product "square mile" [("mi", 2)] ["mi2", "mi²"],
  fixed "ha" "hectare" .area (.ofInt 10000) "area",
  fixed "ac" "acre" .area (.ofScaled 40468564224 (-7)) "area"]

def volumeUnits : List CatalogueEntry := [
  .product "cubic meter" [("m", 3)] ["m3", "m³", "cubic metre"],
  .product "cubic centimeter" [("cm", 3)] ["cm3", "cm³", "cc"],
  .product "cubic foot" [("ft", 3)] ["ft3", "ft³", "cubic feet"],
  .product "cubic inch" [("in", 3)] ["in3", "in³"],
  scaled "L" "liter" .volume (.ofRatio 1 1000) "volume",
  .aliases "L" ["l", "litre"],
  fixed "gal" "gallon" .volume (.ofScaled 3785411784 (-12)) "volume",
  fixed "qt" "quart" .volume (.ofScaled 946352946 (-12)) "volume",
  fixed "pt" "pint" .volume (.ofScaled 473176473 (-12)) "volume",
  fixed "cup" "cup" .volume (.ofScaled 2365882365 (-13)) "volume",
  fixed "floz" "fluid ounce" .volume (.ofScaled 295735295625 (-16)) "volume",
  fixed "tbsp" "tablespoon" .volume (.ofScaled 1478676478125 (-17)) "volume",
  fixed "tsp" "teaspoon" .volume (.ofScaled 492892159375 (-17)) "volume",
  fixed "impgal" "imperial gallon" .volume (.ofScaled 454609 (-8)) "volume",
  fixed "imppt" "imperial pint" .volume (.ofScaled 56826125 (-11)) "volume"]

def velocityUnits : List CatalogueEntry := [
  .product "meter per second" [("m", 1), ("s", -1)] ["mps"],
  .product "kilometer per hour" [("km", 1), ("h", -1)] ["kph", "kmh", "kmph"],
  .product "foot per second" [("ft", 1), ("s", -1)] ["fps"],
  fixed "mph" "mile per hour" .velocity (.ofScaled 44704 (-5)) "velocity",
  fixed "kn" "knot" .velocity (.ofRatio 1852 3600) "velocity",
  .aliases "kn" ["kt", "kts"]]

def accelerationUnits : List CatalogueEntry := [
  .product "meter per second squared" [("m", 1), ("s", -2)] ["m/s2", "m/s²"]]

def forceUnits : List CatalogueEntry := [
  scaled "N" "newton" .force (.ofInt 1) "force",
  fixed "dyn" "dyne" .force (.ofScaled 1 (-5)) "force",
  fixed "lbf" "pound-force" .force (.ofScaled 44482216152605 (-13)) "force",
  fixed "kgf" "kilogram-force" .force (.ofScaled 980665 (-5)) "force"]

def energyUnits : List CatalogueEntry := [
  scaled "J" "joule" .energy (.ofInt 1) "energy",
  scaled "cal" "calorie" .energy (.ofScaled 4184 (-3)) "energy",
  fixed "kcal" "kilocalorie" .energy (.ofInt 4184) "energy",
  scaled "Wh" "watt-hour" .energy (.ofInt 3600) "energy",
  scaled "eV" "electronvolt" .energy (.ofScaled 1602176634 (-28)) "energy",
  fixed "BTU" "British thermal unit" .energy (.ofScaled 105505585262 (-8)) "energy",
  fixed "erg" "erg" .energy (.ofScaled 1 (-7)) "energy",
  .aliases "kcal" ["Cal", "Calorie", "Calories"],
  .aliases "Wh" ["watt hour"],
  .aliases "eV" ["electron volt"],
  .aliases "BTU" ["btu"]]

def powerUnits : List CatalogueEntry := [
  scaled "W" "watt" .powerRate (.ofInt 1) "power",
  fixed "hp" "horsepower" .powerRate (.ofScaled 745699872 (-6)) "power"]

def pressureUnits : List CatalogueEntry := [
  scaled "Pa" "pascal" .pressure (.ofInt 1) "pressure",
  scaled "bar" "bar" .pressure (.ofInt 100000) "pressure",
  fixed "atm" "atmosphere" .pressure (.ofInt 101325) "pressure",
  fixed "psi" "pound per square inch" .pressure (.ofScaled 6894757293168 (-9)) "pressure",
  fixed "mmHg" "millimeter of mercury" .pressure (.ofScaled 133322387415 (-9)) "pressure",
  fixed "torr" "torr" .pressure (.ofRatio 101325 760) "pressure"]

def frequencyUnits : List CatalogueEntry := [
  scaled "Hz" "hertz" .frequency (.ofInt 1) "frequency",
  fixed "rpm" "revolution per minute" .frequency (.ofRatio 1 60) "frequency"]

def electricalUnits : List CatalogueEntry := [
  scaled "V" "volt" .voltage (.ofInt 1) "electrical",
  scaled "Ω" "ohm" .resistance (.ofInt 1) "electrical",
  scaled "C" "coulomb" .charge (.ofInt 1) "electrical",
  scaled "F" "farad" .capacitance (.ofInt 1) "electrical",
  scaled "Ah" "ampere-hour" .charge (.ofInt 3600) "electrical"]

def dataUnits : List CatalogueEntry := [
  scaled "bit" "bit" .information (.ofInt 1) "data" .decimalAndBinary,
  scaled "B" "byte" .information (.ofInt 8) "data" .decimalAndBinary,
  scaled "bps" "bit per second" .dataRate (.ofInt 1) "data_rate",
  .aliases "bit" ["b"],
  .aliases "B" ["octet"]]

/-- Angles. They have no dimension; the factor converts to radians. -/
def angleUnits : List CatalogueEntry := [
  scaled "rad" "radian" .dimensionless (.ofInt 1) "angle",
  fixed "deg" "degree" .dimensionless (timesPi (.ofRatio 1 180)) "angle",
  fixed "grad" "gradian" .dimensionless (timesPi (.ofRatio 1 200)) "angle",
  fixed "arcmin" "arcminute" .dimensionless (timesPi (.ofRatio 1 10800)) "angle",
  fixed "arcsec" "arcsecond" .dimensionless (timesPi (.ofRatio 1 648000)) "angle",
  fixed "turn" "turn" .dimensionless (timesPi (.ofInt 2)) "angle",
  .aliases "deg" ["°"],
  .aliases "grad" ["gon"]]

def ratioUnits : List CatalogueEntry := [
  fixed "%" "percent" .dimensionless (.ofRatio 1 100) "ratio",
  fixed "‰" "permille" .dimensionless (.ofRatio 1 1000) "ratio",
  fixed "ppm" "part per million" .dimensionless (.ofScaled 1 (-6)) "ratio",
  .aliases "%" ["pct", "per cent"]]

/-- Money. There are no exchange rates: one currency and its hundredth part. -/
def currencyUnits : List CatalogueEntry := [
  fixed "$" "dollar" .currency (.ofInt 1) "currency",
  fixed "¢" "cent" .currency (.ofRatio 1 100) "currency",
  .aliases "$" ["USD", "usd", "buck", "bucks"]]

def entries : List CatalogueEntry :=
  lengthUnits ++ massUnits ++ timeUnits ++ temperatureUnits ++ currentUnits ++ amountUnits ++
    luminosityUnits ++ areaUnits ++ volumeUnits ++ velocityUnits ++ accelerationUnits ++
    forceUnits ++ energyUnits ++ powerUnits ++ pressureUnits ++ frequencyUnits ++
    electricalUnits ++ dataUnits ++ angleUnits ++ ratioUnits ++ currencyUnits

end Reckoner.Catalogue

namespace Reckoner

/-- The registry of all catalogued units. -/
def standardUnits : Registry := .ofCatalogue Catalogue.entries

end Reckoner
