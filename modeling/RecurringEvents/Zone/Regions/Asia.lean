import RecurringEvents.Zone.Region

/-!
# Regions of Asia

The clocks of the regions since local mean time, as the tz database tells them (release 2025b). The
latest change stands first.
-/

namespace RecurringEvents.Region

/-- `Asia/Bangkok`. -/
def bangkok : Region where
  name := "Asia/Bangkok"
  first := ⟨24124, "LMT"⟩
  changes :=
    [⟨-1570084924, 25200, "+07"⟩, ⟨-2840164924, 24124, "BMT"⟩]
  later := .steady ⟨25200, "+07"⟩

/-- `Asia/Dubai`. -/
def dubai : Region where
  name := "Asia/Dubai"
  first := ⟨13272, "LMT"⟩
  changes :=
    [⟨-1577936472, 14400, "+04"⟩]
  later := .steady ⟨14400, "+04"⟩

/-- `Asia/Hong_Kong`. -/
def hongKong : Region where
  name := "Asia/Hong_Kong"
  first := ⟨27402, "LMT"⟩
  changes :=
    [⟨309292200, 28800, "HKT"⟩, ⟨295385400, 32400, "HKST"⟩, ⟨214338600, 28800, "HKT"⟩,
     ⟨198617400, 32400, "HKST"⟩, ⟨182889000, 28800, "HKT"⟩, ⟨167167800, 32400, "HKST"⟩,
     ⟨151439400, 28800, "HKT"⟩, ⟨126041400, 32400, "HKST"⟩, ⟨119989800, 28800, "HKT"⟩,
     ⟨104268600, 32400, "HKST"⟩, ⟨88540200, 28800, "HKT"⟩, ⟨72214200, 32400, "HKST"⟩,
     ⟨56485800, 28800, "HKT"⟩, ⟨40764600, 32400, "HKST"⟩, ⟨25036200, 28800, "HKT"⟩,
     ⟨9315000, 32400, "HKST"⟩, ⟨-6413400, 28800, "HKT"⟩, ⟨-22134600, 32400, "HKST"⟩,
     ⟨-37863000, 28800, "HKT"⟩, ⟨-53584200, 32400, "HKST"⟩, ⟨-69312600, 28800, "HKT"⟩,
     ⟨-85638600, 32400, "HKST"⟩, ⟨-101367000, 28800, "HKT"⟩, ⟨-117088200, 32400, "HKST"⟩,
     ⟨-132816600, 28800, "HKT"⟩, ⟨-148537800, 32400, "HKST"⟩, ⟨-163056600, 28800, "HKT"⟩,
     ⟨-182406600, 32400, "HKST"⟩, ⟨-194506200, 28800, "HKT"⟩, ⟨-213856200, 32400, "HKST"⟩,
     ⟨-225955800, 28800, "HKT"⟩, ⟨-245910600, 32400, "HKST"⟩, ⟨-257405400, 28800, "HKT"⟩,
     ⟨-277360200, 32400, "HKST"⟩, ⟨-288855000, 28800, "HKT"⟩, ⟨-308809800, 32400, "HKST"⟩,
     ⟨-320909400, 28800, "HKT"⟩, ⟨-340259400, 32400, "HKST"⟩, ⟨-352359000, 28800, "HKT"⟩,
     ⟨-371709000, 32400, "HKST"⟩, ⟨-383808600, 28800, "HKT"⟩, ⟨-403158600, 32400, "HKST"⟩,
     ⟨-415258200, 28800, "HKT"⟩, ⟨-435213000, 32400, "HKST"⟩, ⟨-446707800, 28800, "HKT"⟩,
     ⟨-466662600, 32400, "HKST"⟩, ⟨-478762200, 28800, "HKT"⟩, ⟨-498112200, 32400, "HKST"⟩,
     ⟨-510211800, 28800, "HKT"⟩, ⟨-528352200, 32400, "HKST"⟩, ⟨-541657800, 28800, "HKT"⟩,
     ⟨-559801800, 32400, "HKST"⟩, ⟨-573712200, 28800, "HKT"⟩, ⟨-591856200, 32400, "HKST"⟩,
     ⟨-605161800, 28800, "HKT"⟩, ⟨-623305800, 32400, "HKST"⟩, ⟨-636611400, 28800, "HKT"⟩,
     ⟨-654755400, 32400, "HKST"⟩, ⟨-668061000, 28800, "HKT"⟩, ⟨-683785800, 32400, "HKST"⟩,
     ⟨-697091400, 28800, "HKT"⟩, ⟨-717049800, 32400, "HKST"⟩, ⟨-728541000, 28800, "HKT"⟩,
     ⟨-747907200, 32400, "HKST"⟩, ⟨-761209200, 28800, "HKT"⟩, ⟨-884248200, 32400, "JST"⟩,
     ⟨-891579600, 30600, "HKWT"⟩, ⟨-900910800, 32400, "HKST"⟩, ⟨-2056690800, 28800, "HKT"⟩]
  later := .steady ⟨28800, "HKT"⟩

/-- `Asia/Jerusalem`. -/
def jerusalem : Region where
  name := "Asia/Jerusalem"
  first := ⟨8454, "LMT"⟩
  changes :=
    [⟨1364515200, 10800, "IDT"⟩, ⟨1348354800, 7200, "IST"⟩, ⟨1333065600, 10800, "IDT"⟩,
     ⟨1317510000, 7200, "IST"⟩, ⟨1301616000, 10800, "IDT"⟩, ⟨1284246000, 7200, "IST"⟩,
     ⟨1269561600, 10800, "IDT"⟩, ⟨1254006000, 7200, "IST"⟩, ⟨1238112000, 10800, "IDT"⟩,
     ⟨1223161200, 7200, "IST"⟩, ⟨1206662400, 10800, "IDT"⟩, ⟨1189897200, 7200, "IST"⟩,
     ⟨1175212800, 10800, "IDT"⟩, ⟨1159657200, 7200, "IST"⟩, ⟨1143763200, 10800, "IDT"⟩,
     ⟨1128812400, 7200, "IST"⟩, ⟨1112313600, 10800, "IDT"⟩, ⟨1095804000, 7200, "IST"⟩,
     ⟨1081292400, 10800, "IDT"⟩, ⟨1065132000, 7200, "IST"⟩, ⟨1048806000, 10800, "IDT"⟩,
     ⟨1033941600, 7200, "IST"⟩, ⟨1017356400, 10800, "IDT"⟩, ⟨1001282400, 7200, "IST"⟩,
     ⟨986770800, 10800, "IDT"⟩, ⟨970783200, 7200, "IST"⟩, ⟨955670400, 10800, "IDT"⟩,
     ⟨936313200, 7200, "IST"⟩, ⟨923011200, 10800, "IDT"⟩, ⟨905029200, 7200, "IST"⟩,
     ⟨890344800, 10800, "IDT"⟩, ⟨874184400, 7200, "IST"⟩, ⟨858895200, 10800, "IDT"⟩,
     ⟨842821200, 7200, "IST"⟩, ⟨826840800, 10800, "IDT"⟩, ⟨810075600, 7200, "IST"⟩,
     ⟨796600800, 10800, "IDT"⟩, ⟨778021200, 7200, "IST"⟩, ⟨765151200, 10800, "IDT"⟩,
     ⟨747176400, 7200, "IST"⟩, ⟨733701600, 10800, "IDT"⟩, ⟨715726800, 7200, "IST"⟩,
     ⟨701820000, 10800, "IDT"⟩, ⟨683672400, 7200, "IST"⟩, ⟨669765600, 10800, "IDT"⟩,
     ⟨651618000, 7200, "IST"⟩, ⟨638316000, 10800, "IDT"⟩, ⟨620773200, 7200, "IST"⟩,
     ⟨609890400, 10800, "IDT"⟩, ⟨589323600, 7200, "IST"⟩, ⟨576626400, 10800, "IDT"⟩,
     ⟨558478800, 7200, "IST"⟩, ⟨545436000, 10800, "IDT"⟩, ⟨526424400, 7200, "IST"⟩,
     ⟨516751200, 10800, "IDT"⟩, ⟨494370000, 7200, "IST"⟩, ⟨482277600, 10800, "IDT"⟩,
     ⟨462319200, 7200, "IST"⟩, ⟨452642400, 10800, "IDT"⟩, ⟨337730400, 7200, "IST"⟩,
     ⟨334101600, 10800, "IDT"⟩, ⟨178664400, 7200, "IST"⟩, ⟨167176800, 10800, "IDT"⟩,
     ⟨150843600, 7200, "IST"⟩, ⟨142380000, 10800, "IDT"⟩, ⟨-387417600, 7200, "IST"⟩,
     ⟨-400118400, 10800, "IDT"⟩, ⟨-418262400, 7200, "IST"⟩, ⟨-428544000, 10800, "IDT"⟩,
     ⟨-451526400, 7200, "IST"⟩, ⟨-459388800, 10800, "IDT"⟩, ⟨-482976000, 7200, "IST"⟩,
     ⟨-490838400, 10800, "IDT"⟩, ⟨-514425600, 7200, "IST"⟩, ⟨-527731200, 10800, "IDT"⟩,
     ⟨-542851200, 7200, "IST"⟩, ⟨-558576000, 10800, "IDT"⟩, ⟨-572486400, 7200, "IST"⟩,
     ⟨-591840000, 10800, "IDT"⟩, ⟨-608947200, 7200, "IST"⟩, ⟨-622080000, 10800, "IDT"⟩,
     ⟨-636422400, 7200, "IST"⟩, ⟨-652320000, 10800, "IDT"⟩, ⟨-667958400, 7200, "IST"⟩,
     ⟨-673228800, 10800, "IDT"⟩, ⟨-681955200, 14400, "IDDT"⟩, ⟨-731116800, 7200, "IST"⟩,
     ⟨-748310400, 10800, "IDT"⟩, ⟨-762652800, 7200, "IST"⟩, ⟨-779846400, 10800, "IDT"⟩,
     ⟨-794188800, 7200, "IST"⟩, ⟨-812678400, 10800, "IDT"⟩, ⟨-825811200, 7200, "IST"⟩,
     ⟨-844300800, 10800, "IDT"⟩, ⟨-857347200, 7200, "IST"⟩, ⟨-919036800, 10800, "IDT"⟩,
     ⟨-923097600, 7200, "IST"⟩, ⟨-933638400, 10800, "IDT"⟩, ⟨-1641003640, 7200, "IST"⟩,
     ⟨-2840149254, 8440, "JMT"⟩]
  later := .seasonal ⟨7200, "IST"⟩ ⟨10800, "IDT"⟩ ⟨3, 4, 4, 93600⟩ ⟨10, 5, 0, 7200⟩

/-- `Asia/Kathmandu`. -/
def kathmandu : Region where
  name := "Asia/Kathmandu"
  first := ⟨20476, "LMT"⟩
  changes :=
    [⟨504901800, 20700, "+0545"⟩, ⟨-1577943676, 19800, "+0530"⟩]
  later := .steady ⟨20700, "+0545"⟩

/-- `Asia/Kolkata`. -/
def kolkata : Region where
  name := "Asia/Kolkata"
  first := ⟨21208, "LMT"⟩
  changes :=
    [⟨-764145000, 19800, "IST"⟩, ⟨-862637400, 23400, "+0630"⟩, ⟨-872058600, 19800, "IST"⟩,
     ⟨-891581400, 23400, "+0630"⟩, ⟨-2019705670, 19800, "IST"⟩, ⟨-3155694800, 19270, "MMT"⟩,
     ⟨-3645237208, 21200, "HMT"⟩]
  later := .steady ⟨19800, "IST"⟩

/-- `Asia/Riyadh`. -/
def riyadh : Region where
  name := "Asia/Riyadh"
  first := ⟨11212, "LMT"⟩
  changes :=
    [⟨-719636812, 10800, "+03"⟩]
  later := .steady ⟨10800, "+03"⟩

/-- `Asia/Seoul`. -/
def seoul : Region where
  name := "Asia/Seoul"
  first := ⟨30472, "LMT"⟩
  changes :=
    [⟨592333200, 32400, "KST"⟩, ⟨579027600, 36000, "KDT"⟩, ⟨560883600, 32400, "KST"⟩,
     ⟨547578000, 36000, "KDT"⟩, ⟨-264933000, 32400, "KST"⟩, ⟨-293103000, 30600, "KST"⟩,
     ⟨-305195400, 34200, "KDT"⟩, ⟨-324552600, 30600, "KST"⟩, ⟨-336645000, 34200, "KDT"⟩,
     ⟨-356002200, 30600, "KST"⟩, ⟨-368094600, 34200, "KDT"⟩, ⟨-387451800, 30600, "KST"⟩,
     ⟨-399544200, 34200, "KDT"⟩, ⟨-418296600, 30600, "KST"⟩, ⟨-429784200, 34200, "KDT"⟩,
     ⟨-451733400, 30600, "KST"⟩, ⟨-462702600, 34200, "KDT"⟩, ⟨-498128400, 30600, "KST"⟩,
     ⟨-577965600, 32400, "KST"⟩, ⟨-588848400, 36000, "KDT"⟩, ⟨-609415200, 32400, "KST"⟩,
     ⟨-623408400, 36000, "KDT"⟩, ⟨-640864800, 32400, "KST"⟩, ⟨-654771600, 36000, "KDT"⟩,
     ⟨-672228000, 32400, "KST"⟩, ⟨-681210000, 36000, "KDT"⟩, ⟨-767350800, 32400, "KST"⟩,
     ⟨-1830414600, 32400, "JST"⟩, ⟨-1948782472, 30600, "KST"⟩]
  later := .steady ⟨32400, "KST"⟩

/-- `Asia/Shanghai`. -/
def shanghai : Region where
  name := "Asia/Shanghai"
  first := ⟨29143, "LMT"⟩
  changes :=
    [⟨684867600, 28800, "CST"⟩, ⟨671565600, 32400, "CDT"⟩, ⟨653418000, 28800, "CST"⟩,
     ⟨640116000, 32400, "CDT"⟩, ⟨621968400, 28800, "CST"⟩, ⟨608666400, 32400, "CDT"⟩,
     ⟨589914000, 28800, "CST"⟩, ⟨577216800, 32400, "CDT"⟩, ⟨558464400, 28800, "CST"⟩,
     ⟨545162400, 32400, "CDT"⟩, ⟨527014800, 28800, "CST"⟩, ⟨515527200, 32400, "CDT"⟩,
     ⟨-650019600, 28800, "CST"⟩, ⟨-652348800, 32400, "CDT"⟩, ⟨-670669200, 28800, "CST"⟩,
     ⟨-683884800, 32400, "CDT"⟩, ⟨-699613200, 28800, "CST"⟩, ⟨-716889600, 32400, "CDT"⟩,
     ⟨-733827600, 28800, "CST"⟩, ⟨-745833600, 32400, "CDT"⟩, ⟨-767869200, 28800, "CST"⟩,
     ⟨-881049600, 32400, "CDT"⟩, ⟨-888829200, 28800, "CST"⟩, ⟨-908870400, 32400, "CDT"⟩,
     ⟨-922093200, 28800, "CST"⟩, ⟨-933667200, 32400, "CDT"⟩, ⟨-1585904400, 28800, "CST"⟩,
     ⟨-1600675200, 32400, "CDT"⟩, ⟨-2177481943, 28800, "CST"⟩]
  later := .steady ⟨28800, "CST"⟩

/-- `Asia/Singapore`. -/
def singapore : Region where
  name := "Asia/Singapore"
  first := ⟨24925, "LMT"⟩
  changes :=
    [⟨378662400, 28800, "+08"⟩, ⟨-767005200, 27000, "+0730"⟩, ⟨-879665400, 32400, "+09"⟩,
     ⟨-894180000, 27000, "+0730"⟩, ⟨-1073028000, 26400, "+0720"⟩, ⟨-1167634800, 26400, "+0720"⟩,
     ⟨-2038200925, 25200, "+07"⟩, ⟨-2177477725, 24925, "SMT"⟩]
  later := .steady ⟨28800, "+08"⟩

/-- `Asia/Taipei`. -/
def taipei : Region where
  name := "Asia/Taipei"
  first := ⟨29160, "LMT"⟩
  changes :=
    [⟨307551600, 28800, "CST"⟩, ⟨299606400, 32400, "CDT"⟩, ⟨181321200, 28800, "CST"⟩,
     ⟨165513600, 32400, "CDT"⟩, ⟨149785200, 28800, "CST"⟩, ⟨133977600, 32400, "CDT"⟩,
     ⟨-260442000, 28800, "CST"⟩, ⟨-270979200, 32400, "CDT"⟩, ⟨-291978000, 28800, "CST"⟩,
     ⟨-302515200, 32400, "CDT"⟩, ⟨-323600400, 28800, "CST"⟩, ⟨-339408000, 32400, "CDT"⟩,
     ⟨-355136400, 28800, "CST"⟩, ⟨-370944000, 32400, "CDT"⟩, ⟨-386672400, 28800, "CST"⟩,
     ⟨-402480000, 32400, "CDT"⟩, ⟨-418208400, 28800, "CST"⟩, ⟨-434016000, 32400, "CDT"⟩,
     ⟨-449830800, 28800, "CST"⟩, ⟨-465638400, 32400, "CDT"⟩, ⟨-478688400, 28800, "CST"⟩,
     ⟨-497174400, 32400, "CDT"⟩, ⟨-510224400, 28800, "CST"⟩, ⟨-528710400, 32400, "CDT"⟩,
     ⟨-541760400, 28800, "CST"⟩, ⟨-562924800, 32400, "CDT"⟩, ⟨-576061200, 28800, "CST"⟩,
     ⟨-589276800, 32400, "CDT"⟩, ⟨-607597200, 28800, "CST"⟩, ⟨-620812800, 32400, "CDT"⟩,
     ⟨-639133200, 28800, "CST"⟩, ⟨-652348800, 32400, "CDT"⟩, ⟨-670669200, 28800, "CST"⟩,
     ⟨-683884800, 32400, "CDT"⟩, ⟨-699613200, 28800, "CST"⟩, ⟨-716889600, 32400, "CDT"⟩,
     ⟨-733827600, 28800, "CST"⟩, ⟨-745833600, 32400, "CDT"⟩, ⟨-766224000, 28800, "CST"⟩,
     ⟨-1017820800, 32400, "JST"⟩, ⟨-2335248360, 28800, "CST"⟩]
  later := .steady ⟨28800, "CST"⟩

/-- `Asia/Tokyo`. -/
def tokyo : Region where
  name := "Asia/Tokyo"
  first := ⟨33539, "LMT"⟩
  changes :=
    [⟨-577962000, 32400, "JST"⟩, ⟨-588848400, 36000, "JDT"⟩, ⟨-609411600, 32400, "JST"⟩,
     ⟨-620298000, 36000, "JDT"⟩, ⟨-640861200, 32400, "JST"⟩, ⟨-654771600, 36000, "JDT"⟩,
     ⟨-672310800, 32400, "JST"⟩, ⟨-683802000, 36000, "JDT"⟩, ⟨-2587712400, 32400, "JST"⟩]
  later := .steady ⟨32400, "JST"⟩

/-- `Asia/Yangon`. -/
def yangon : Region where
  name := "Asia/Yangon"
  first := ⟨23087, "LMT"⟩
  changes :=
    [⟨-778410000, 23400, "+0630"⟩, ⟨-873268200, 32400, "+09"⟩, ⟨-1577946287, 23400, "+0630"⟩,
     ⟨-2840163887, 23087, "RMT"⟩]
  later := .steady ⟨23400, "+0630"⟩

end RecurringEvents.Region
