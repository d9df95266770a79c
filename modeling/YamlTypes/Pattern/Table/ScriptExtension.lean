/-!
The characters that are used with more scripts than their own, or with other
ones, in groups with the same scripts. The characters are ranges in base 36: the
gap before each range and the characters that it has besides its first.
-/

set_option autoImplicit false

namespace YamlTypes.Pattern.Table

/-- Short names of scripts, and the characters that are used with all of them. -/
def scriptExtensions : List (List String × String) :=
  [
    (["avst", "cari", "copt", "dupl", "elba", "geor", "glag", "gong", "goth", "grek", "hani",
      "latn", "lydi", "mahj", "perm", "shaw"], "53 0"),
    (["beng", "cyrl", "deva", "latn", "lisu", "thai", "toto"], "jg 0"),
    (["bopo", "latn"], "jr 0 1 2 d 0"),
    (["latn", "lisu"], "jx 0"),
    (["latn", "thai"], "k7 0"),
    (["cher", "copt", "cyrl", "grek", "latn", "perm", "sunu", "tale"], "lc 0"),
    (["cher", "cyrl", "grek", "latn", "osge", "sunu", "tale", "todr"], "ld 0"),
    (["cher", "cyrl", "latn", "tfng"], "le 0"),
    (["glag", "latn", "sunu", "syrc", "thai"], "lf 0"),
    (["aghb", "cher", "copt", "cyrl", "goth", "grek", "latn", "osge", "syrc", "tfng", "todr"],
      "lg 0"),
    (["copt", "elba", "glag", "goth", "kana", "latn"], "lh 0"),
    (["cyrl", "grek", "latn", "perm", "tfng"], "li 0"),
    (["copt", "dupl", "hebr", "latn", "perm", "syrc", "tale", "tfng", "todr"], "lj 0"),
    (["armn", "cyrl", "dupl", "goth", "grek", "hebr", "latn", "perm", "syrc", "tale", "tfng"],
      "lk 0"),
    (["latn", "tfng"], "ll 0"),
    (["dupl", "latn", "syrc"], "lm 0"),
    (["cher", "cyrl", "latn", "osge"], "ln 0"),
    (["cher", "latn", "tale"], "lo 0"),
    (["latn", "sunu"], "lp 0 2 0"),
    (["ethi", "latn"], "lq 0"),
    (["cyrl", "latn", "todr"], "lt 0"),
    (["grek", "latn", "perm", "todr"], "lv 0"),
    (["cher", "dupl", "kana", "latn", "syrc", "tfng"], "mb 0"),
    (["cher", "dupl", "latn", "syrc"], "mc 0"),
    (["latn", "syrc"], "md 0 8 0"),
    (["latn", "sunu", "syrc"], "ml 0"),
    (["cher", "latn", "syrc"], "mo 0"),
    (["aghb", "cher", "goth", "latn", "sunu", "syrc", "thai"], "mp 0"),
    (["grek"], "n6 0 2 0 58a 1"),
    (["latn", "osge"], "ns 0"),
    (["aghb", "latn", "todr"], "ny 0"),
    (["latn"], "o3 c"),
    (["copt", "grek"], "ok 1"),
    (["cyrl", "perm"], "w3 0"),
    (["cyrl", "glag"], "w4 0 2 0 88r 0 nqj 0"),
    (["cyrl", "latn"], "w5 1"),
    (["armn", "geor", "glag"], "13d 0"),
    (["arab", "gara", "nkoo", "rohg", "syrc", "thaa", "yezi"], "170 0 e 0"),
    (["arab", "syrc", "thaa"], "17g 0"),
    (["adlm", "arab", "gara", "nkoo", "rohg", "syrc", "thaa", "yezi"], "17j 0"),
    (["adlm", "arab", "mand", "mani", "ougr", "phlp", "rohg", "sogd", "syrc"], "18g 0"),
    (["arab", "syrc"], "18r a q 0"),
    (["arab", "thaa", "yezi"], "19c 9"),
    (["arab", "rohg"], "1ck 0"),
    (["beng", "deva", "gran", "gujr", "guru", "knda", "latn", "mlym", "nand", "newa", "orya",
      "shrd", "taml", "telu", "tirh"], "1u9 0"),
    (["beng", "deva", "gran", "gujr", "guru", "knda", "latn", "mlym", "newa", "orya", "taml",
      "telu", "tirh"], "1ua 0"),
    (["beng", "deva", "dogr", "gong", "gonm", "gran", "gujr", "guru", "knda", "mahj", "mlym",
      "nand", "onao", "orya", "sind", "sinh", "sylo", "takr", "taml", "telu", "tirh"], "1us 0"),
    (["beng", "deva", "dogr", "gong", "gonm", "gran", "gujr", "gukh", "guru", "knda", "limb",
      "mahj", "mlym", "nand", "onao", "orya", "sind", "sinh", "sylo", "takr", "taml", "telu",
      "tirh"], "1ut 0"),
    (["deva", "dogr", "kthi", "mahj"], "1uu 9"),
    (["beng", "cakm", "sylo"], "1ye 9"),
    (["guru", "mult"], "21y 9"),
    (["gujr", "khoj"], "25i 9"),
    (["gran", "taml"], "2cm d 1fyl 0 1 0 1j 1 2hf 1 1 0"),
    (["knda", "nand", "tutg"], "2jq 9"),
    (["cakm", "mymr", "tale"], "37k 9"),
    (["geor", "glag", "latn"], "3cr 0"),
    (["runr"], "4iz 2"),
    (["buhd", "hano", "tagb", "tglg"], "4l1 1"),
    (["mong", "phag"], "4qq 1 1 0"),
    (["beng", "deva", "gran", "knda"], "5ow 0 1 0"),
    (["deva"], "5ox 0 2 0 6 0 2 1 3 5 3 0 1 3"),
    (["deva", "gran", "knda"], "5oz 0"),
    (["beng", "deva", "newa", "telu", "tirh"], "5p1 0"),
    (["beng", "deva", "telu"], "5p2 0"),
    (["deva", "newa", "shrd"], "5p3 0"),
    (["beng", "deva", "newa", "telu"], "5p4 0"),
    (["deva", "shrd"], "5p5 0 2 1 2 0"),
    (["deva", "knda", "mlym", "orya", "taml", "telu"], "5p6 0"),
    (["beng", "deva"], "5pd 0 j 1"),
    (["deva", "newa", "tirh"], "5pe 0"),
    (["deva", "nand", "newa"], "5pl 0"),
    (["beng", "deva", "shrd"], "5pm 0"),
    (["deva", "newa"], "5pn 0"),
    (["beng", "deva", "newa", "shrd"], "5pp 0"),
    (["beng", "deva", "gran", "knda", "mlym", "nand", "orya", "sinh", "telu", "tirh", "tutg"],
      "5pu 0"),
    (["deva", "gran"], "5pv 0 4 1"),
    (["deva", "gran", "knda", "tutg"], "5pw 0"),
    (["beng"], "5pz 0"),
    (["nand"], "5q2 0"),
    (["cyrl", "latn", "syrc"], "5x4 0"),
    (["syrc"], "5x6 0"),
    (["latn", "mong", "phag"], "6cv 0"),
    (["adlm", "arab"], "6dr 0"),
    (["cari", "geor", "glag", "hung", "lyci", "orkh"], "6e2 0"),
    (["cari", "grek", "hung", "mero"], "6e5 0"),
    (["deva", "gran", "latn"], "6i8 0"),
    (["copt", "latn"], "93r 0"),
    (["avst", "orkh"], "94g 0"),
    (["avst", "cari", "geor", "hung", "kthi", "lydi", "samr"], "94h 0"),
    (["dupl"], "94s 0 26oz 3"),
    (["adlm", "arab", "hung"], "94x 0"),
    (["hani", "tang"], "9gw f dr 0"),
    (["bopo", "hang", "hani", "hira", "kana", "mong", "yiii"], "9hd 0"),
    (["bopo", "hang", "hani", "hira", "kana", "mong", "phag", "yiii"], "9he 0"),
    (["bopo", "hang", "hani", "hira", "kana"], "9hf 0 f 0 8 3 g 0 6 0 14p9 1"),
    (["hani"], "9hi 0 1j 1 9c f w 11 1m 13 1k 1c f b 1f 0 2g o a 4 2o u 2a1t h 63i 1"),
    (["bopo", "hang", "hani", "hira", "kana", "mong", "tibt", "yiii"], "9hk 1"),
    (["bopo", "hang", "hani", "hira", "kana", "lisu", "mong", "tibt", "yiii"], "9hm 1"),
    (["bopo", "hang", "hani", "hira", "kana", "yiii"], "9ho 5 2 7 67 0 14rp 4"),
    (["bopo", "hani"], "9ii 3"),
    (["hira", "kana"], "9ip 4 2r 3 3 0 2j 0 14s3 0 19 1"),
    (["hani", "hira", "kana"], "9j0 1"),
    (["hani", "latn"], "wzk 7"),
    (["deva", "dogr", "gujr", "guru", "khoj", "knda", "kthi", "mahj", "mlym", "modi", "nand",
      "shrd", "sind", "takr", "tirh", "tutg"], "x80 2"),
    (["deva", "dogr", "gujr", "guru", "khoj", "knda", "kthi", "mahj", "modi", "nand", "shrd",
      "sind", "takr", "tirh", "tutg"], "x83 2"),
    (["deva", "dogr", "gujr", "guru", "khoj", "kthi", "mahj", "modi", "sind", "takr", "tirh"],
      "x86 1 1 0"),
    (["deva", "dogr", "gujr", "guru", "khoj", "kthi", "mahj", "modi", "shrd", "sind", "takr",
      "tirh"], "x88 0"),
    (["beng", "deva", "tutg"], "xdd 0"),
    (["deva", "taml"], "xdf 0"),
    (["kali", "latn", "mymr"], "xf2 0"),
    (["bugi", "java"], "xjj 0"),
    (["arab", "nkoo"], "1e0u 1"),
    (["arab", "thaa"], "1e5u 0 a 0"),
    (["cpmn", "cprt", "linb"], "1erk 1"),
    (["cprt", "linb"], "1erm 0 1g 8"),
    (["cprt", "lina", "linb"], "1err 18"),
    (["arab", "copt"], "1f4w r"),
    (["mani", "ougr"], "1gqa 0")
  ]

end YamlTypes.Pattern.Table
