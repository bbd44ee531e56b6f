import ContractKit.Text.Normal.Composition

/-!
# Decompositions of characters

The compatibility decompositions of Unicode 14, for characters that may stand in an identifier.
Composites decompose into their parts.  Syllables of Hangul decompose by a rule and are not
listed.
-/

namespace ContractKit.Text

/-- Runs of code points that decompose into a run of code points: first, size, and what the
first decomposes into. -/
def decompositionRuns : List (List Nat) :=
  numberRows [
    "1d33 8 47;1d5d 3 3b2;1da4 3 268;1dae 4 272;1dbc 3 290;2096 4 6b;2119 3 50;2135 4 5d0",
    "3137 3 1103;313a 6 11b0;3141 3 1106;3145 a 1109;314f 15 1161;3178 5 112b;3184 3 1157",
    "fb24 3 5db;ff10 a 30;ff21 1a 41;ff41 1a 61;ff85 6 30ca;ff8f 5 30de;ff96 6 30e8;ffa7 3 1103",
    "ffaa 6 11b0;ffb1 3 1106;ffb5 a 1109;ffc2 6 1161;ffca 6 1167;ffd2 6 116d;ffda 3 1173",
    "107b6 3 1c0;1d400 1a 41;1d41a 1a 61;1d434 1a 41;1d44e 7 61;1d456 12 69;1d468 1a 41",
    "1d482 1a 61;1d4a9 4 4e;1d4ae 8 53;1d4b6 4 61;1d4bd 7 68;1d4c5 b 70;1d4d0 1a 41;1d4ea 1a 61",
    "1d507 4 44;1d50d 8 4a;1d516 7 53;1d51e 1a 61;1d53b 4 44;1d540 5 49;1d54a 7 53;1d552 1a 61",
    "1d56c 1a 41;1d586 1a 61;1d5a0 1a 41;1d5ba 1a 61;1d5d4 1a 41;1d5ee 1a 61;1d608 1a 41",
    "1d622 1a 61;1d63c 1a 41;1d656 1a 61;1d670 1a 41;1d68a 1a 61;1d6a8 11 391;1d6ba 7 3a3",
    "1d6c2 19 3b1;1d6e2 11 391;1d6f4 7 3a3;1d6fc 19 3b1;1d71c 11 391;1d72e 7 3a3;1d736 19 3b1",
    "1d756 11 391;1d768 7 3a3;1d770 19 3b1;1d790 11 391;1d7a2 7 3a3;1d7aa 19 3b1;1d7ce a 30",
    "1d7d8 a 30;1d7e2 a 30;1d7ec a 30;1d7f6 a 30;1ee0a 4 643;1ee2a 4 643;1ee8b 3 644;1eeab 3 644",
    "1fbf0 a 30"]

/-- Code points that decompose into an ideograph: the first of a row of neighbours and what they
decompose into, with a blank for a neighbour that is not one of them. -/
def ideographs : List (Nat × String) :=
  [
   (0xf900, "豈更車賈滑串句龜龜契金喇奈懶癩羅蘿螺裸邏樂洛烙珞落酪駱亂卵欄爛蘭鸞嵐濫藍襤拉臘蠟廊朗浪狼郎來冷勞擄櫓爐盧老蘆虜路露魯鷺碌祿綠菉錄鹿論壟弄籠聾牢磊賂雷壘屢樓淚漏累縷陋"),
   (0xf952, "勒肋凜凌稜綾菱陵讀拏樂諾丹寧怒率異北磻便復不泌數索參塞省葉說殺辰沈拾若掠略亮兩凉梁糧良諒量勵呂女廬旅濾礪閭驪麗黎力曆歷轢年憐戀撚漣煉璉秊練聯輦蓮連鍊列劣咽烈裂說廉念"),
   (0xf9a4, "捻殮簾獵令囹寧嶺怜玲瑩羚聆鈴零靈領例禮醴隸惡了僚寮尿料樂燎療蓼遼龍暈阮劉杻柳流溜琉留硫紐類六戮陸倫崙淪輪律慄栗率隆利吏履易李梨泥理痢罹裏裡里離匿溺吝燐璘藺隣鱗麟林淋"),
   (0xf9f6, "臨立笠粒狀炙識什茶刺切度拓糖宅洞暴輻行降見廓兀嗀  塚 晴  凞猪益礼神祥福靖精羽 蘒 諸  逸都   飯飼館鶴郞隷侮僧免勉勤卑喝嘆器塀墨層屮悔慨憎懲敏既暑梅海渚漢"),
   (0xfa48, "煮爫琢碑社祉祈祐祖祝禍禎穀突節練縉繁署者臭艹艹著褐視謁謹賓贈辶逸難響頻恵𤋮舘  並况全侀充冀勇勺喝啕喙嗢塚墳奄奔婢嬨廒廙彩徭惘慎愈憎慠懲戴揄搜摒敖晴朗望杖歹殺流滛滋"),
   (0xfa9a, "漢瀞煮瞧爵犯猪瑱甆画瘝瘟益盛直睊着磌窱節类絛練缾者荒華蝹襁覆視調諸請謁諾諭謹變贈輸遲醙鉶陼難靖韛響頋頻鬒龜𢡊𢡄𣏕㮝䀘䀹𥉉𥳐𧻓齃龎"),
   (0x2f800, "丽丸乁𠄢你侮侻倂偺備僧像㒞𠘺免兔兤具𠔜㒹內再𠕋冗冤仌冬况𩇟凵刃㓟刻剆割剷㔕勇勉勤勺包匆北卉卑博即卽卿卿卿𠨬灰及叟𠭣叫叱吆咞吸呈周咢哶唐啓啣善善喙喫喳嗂圖嘆圗噑噴切壮"),
   (0x2f852, "城埴堍型堲報墬𡓤売壷夆多夢奢𡚨𡛪姬娛娧姘婦㛮㛼嬈嬾嬾𡧈寃寘寧寳𡬘寿将当尢㞁屠屮峀岍𡷤嵃𡷦嵮嵫嵼巡巢㠯巽帨帽幩㡢𢆃㡼庰庳庶廊𪎒廾𢌱𢌱舁弢弢㣇𣊸𦇚形彫㣣徚忍志忹悁㤺㤜悔"),
   (0x2f8a4, "𢛔惇慈慌慎慌慺憎憲憤憯懞懲懶成戛扝抱拔捐𢬌挽拼捨掃揤𢯱搢揅掩㨮摩摾撝摷㩬敏敬𣀊旣書晉㬙暑㬈㫤冒冕最暜肭䏙朗望朡杞杓𣏃㭉柺枅桒梅𣑭梎栟椔㮝楂榣槪檨𣚣櫛㰘次𣢧歔㱎歲殟殺"),
   (0x2f8f6, "殻𣪍𡴋𣫺汎𣲼沿泍汧洖派海流浩浸涅𣴞洴港湮㴳滋滇𣻑淹潮𣽞𣾎濆瀹瀞瀛㶖灊災灷炭𠔥煅𤉣熜𤎫爨爵牐𤘈犀犕𤜵𤠔獺王㺬玥㺸㺸瑇瑜瑱璅瓊㼛甤𤰶甾𤲒異𢆟瘐𤾡𤾸𥁄㿼䀈直𥃳𥃲𥄙𥄳眞真真"),
   (0x2f948, "睊䀹瞋䁆䂖𥐝硎碌磌䃣𥘦祖𥚚𥛅福秫䄯穀穊穏𥥼𥪧𥪧竮䈂𥮫篆築䈧𥲀糒䊠糨糣紀𥾆絣䌁緇縂繅䌴𦈨𦉇䍙𦋙罺𦌾羕翺者𦓚𦔣聠𦖨聰𣍟䏕育脃䐋脾媵𦞧𦞵𣎓𣎜舁舄辞䑫芑芋芝劳花芳芽苦𦬼若茝"),
   (0x2f99a, "荣莭茣莽菧著荓菊菌菜𦰶𦵫𦳕䔫蓱蓳蔖𧏊蕤𦼬䕝䕡𦾱𧃒䕫虐虜虧虩蚩蚈蜎蛢蝹蜨蝫螆䗗蟡蠁䗹衠衣𧙧裗裞䘵裺㒻𧢮𧥦䚾䛇誠諭變豕𧲨貫賁贛起𧼯𠠄跋趼跰𠣞軔輸𨗒𨗭邔郱鄑𨜮鄛鈸鋗鋘鉼鏹"),
   (0x2f9ec, "鐕𨯺開䦕閷𨵷䧦雃嶲霣𩅅𩈚䩮䩶韠𩐊䪲𩒖頋頋頩𩖶飢䬳餩馧駂駾䯎𩬰鬒鱀鳽䳎䳭鵧𪃎䳸𪄅𪈎𪊑麻䵖黹黾鼅鼏鼖鼻𪘀")]

/-- Code points that decompose into Arabic letters, which are counted from U+0600. -/
def arabicForms : List (Nat × List Nat) :=
  (blockRows [
    "fb50;71;71;7b;7b;7b;7b;7e;7e;7e;7e;80;80;80;80;7a;7a;7a;7a;7f;7f;7f;7f;79;79;79;79;a4;a4",
    "fb6c;a4;a4;a6;a6;a6;a6;84;84;84;84;83;83;83;83;86;86;86;86;87;87;87;87;8d;8d;8c;8c;8e;8e",
    "fb88;88;88;98;98;91;91;a9;a9;a9;a9;af;af;af;af;b3;b3;b3;b3;b1;b1;b1;b1;ba;ba;bb;bb;bb;bb",
    "fba4;d5 54;d5 54;c1;c1;c1;c1;be;be;be;be;d2;d2;d2 54;d2 54|fbd3;ad;ad;ad;ad;c7;c7;c6;c6;c8",
    "fbdc;c8;c7 74;cb;cb;c5;c5;c9;c9;d0;d0;d0;d0;49;49;4a 54 27;4a 54 27;4a 54 d5;4a 54 d5",
    "fbee;4a 54 48;4a 54 48;4a 54 c7;4a 54 c7;4a 54 c6;4a 54 c6;4a 54 c8;4a 54 c8;4a 54 d0",
    "fbf7;4a 54 d0;4a 54 d0;4a 54 49;4a 54 49;4a 54 49;cc;cc;cc;cc;4a 54 2c;4a 54 2d;4a 54 45",
    "fc03;4a 54 49;4a 54 4a;28 2c;28 2d;28 2e;28 45;28 49;28 4a;2a 2c;2a 2d;2a 2e;2a 45;2a 49",
    "fc10;2a 4a;2b 2c;2b 45;2b 49;2b 4a;2c 2d;2c 45;2d 2c;2d 45;2e 2c;2e 2d;2e 45;33 2c;33 2d",
    "fc1e;33 2e;33 45;35 2d;35 45;36 2c;36 2d;36 2e;36 45;37 2d;37 45;38 45;39 2c;39 45;3a 2c",
    "fc2c;3a 45;41 2c;41 2d;41 2e;41 45;41 49;41 4a;42 2d;42 45;42 49;42 4a;43 27;43 2c;43 2d",
    "fc3a;43 2e;43 44;43 45;43 49;43 4a;44 2c;44 2d;44 2e;44 45;44 49;44 4a;45 2c;45 2d;45 2e",
    "fc48;45 45;45 49;45 4a;46 2c;46 2d;46 2e;46 45;46 49;46 4a;47 2c;47 45;47 49;47 4a;4a 2c",
    "fc56;4a 2d;4a 2e;4a 45;4a 49;4a 4a;30 70;31 70;49 70|fc64;4a 54 31;4a 54 32;4a 54 45",
    "fc67;4a 54 46;4a 54 49;4a 54 4a;28 31;28 32;28 45;28 46;28 49;28 4a;2a 31;2a 32;2a 45",
    "fc73;2a 46;2a 49;2a 4a;2b 31;2b 32;2b 45;2b 46;2b 49;2b 4a;41 49;41 4a;42 49;42 4a;43 27",
    "fc81;43 44;43 45;43 49;43 4a;44 45;44 49;44 4a;45 27;45 45;46 31;46 32;46 45;46 46;46 49",
    "fc8f;46 4a;49 70;4a 31;4a 32;4a 45;4a 46;4a 49;4a 4a;4a 54 2c;4a 54 2d;4a 54 2e;4a 54 45",
    "fc9b;4a 54 47;28 2c;28 2d;28 2e;28 45;28 47;2a 2c;2a 2d;2a 2e;2a 45;2a 47;2b 45;2c 2d",
    "fca8;2c 45;2d 2c;2d 45;2e 2c;2e 45;33 2c;33 2d;33 2e;33 45;35 2d;35 2e;35 45;36 2c;36 2d",
    "fcb6;36 2e;36 45;37 2d;38 45;39 2c;39 45;3a 2c;3a 45;41 2c;41 2d;41 2e;41 45;42 2d;42 45",
    "fcc4;43 2c;43 2d;43 2e;43 44;43 45;44 2c;44 2d;44 2e;44 45;44 47;45 2c;45 2d;45 2e;45 45",
    "fcd2;46 2c;46 2d;46 2e;46 45;46 47;47 2c;47 45;47 70;4a 2c;4a 2d;4a 2e;4a 45;4a 47",
    "fcdf;4a 54 45;4a 54 47;28 45;28 47;2a 45;2a 47;2b 45;2b 47;33 45;33 47;34 45;34 47;43 44",
    "fcec;43 45;44 45;46 45;46 47;4a 45;4a 47;40 4e 51;40 4f 51;40 50 51;37 49;37 4a;39 49",
    "fcf8;39 4a;3a 49;3a 4a;33 49;33 4a;34 49;34 4a;2d 49;2d 4a;2c 49;2c 4a;2e 49;2e 4a;35 49",
    "fd06;35 4a;36 49;36 4a;34 2c;34 2d;34 2e;34 45;34 31;33 31;35 31;36 31;37 49;37 4a;39 49",
    "fd14;39 4a;3a 49;3a 4a;33 49;33 4a;34 49;34 4a;2d 49;2d 4a;2c 49;2c 4a;2e 49;2e 4a;35 49",
    "fd22;35 4a;36 49;36 4a;34 2c;34 2d;34 2e;34 45;34 31;33 31;35 31;36 31;34 2c;34 2d;34 2e",
    "fd30;34 45;33 47;34 47;37 45;33 2c;33 2d;33 2e;34 2c;34 2d;34 2e;37 45;38 45;27 4b;27 4b",
    "fd50;2a 2c 45;2a 2d 2c;2a 2d 2c;2a 2d 45;2a 2e 45;2a 45 2c;2a 45 2d;2a 45 2e;2c 45 2d",
    "fd59;2c 45 2d;2d 45 4a;2d 45 49;33 2d 2c;33 2c 2d;33 2c 49;33 45 2d;33 45 2d;33 45 2c",
    "fd62;33 45 45;33 45 45;35 2d 2d;35 2d 2d;35 45 45;34 2d 45;34 2d 45;34 2c 4a;34 45 2e",
    "fd6b;34 45 2e;34 45 45;34 45 45;36 2d 49;36 2e 45;36 2e 45;37 45 2d;37 45 2d;37 45 45",
    "fd74;37 45 4a;39 2c 45;39 45 45;39 45 45;39 45 49;3a 45 45;3a 45 4a;3a 45 49;41 2e 45",
    "fd7d;41 2e 45;42 45 2d;42 45 45;44 2d 45;44 2d 4a;44 2d 49;44 2c 2c;44 2c 2c;44 2e 45",
    "fd86;44 2e 45;44 45 2d;44 45 2d;45 2d 2c;45 2d 45;45 2d 4a;45 2c 2d;45 2c 45;45 2e 2c",
    "fd8f;45 2e 45;;;45 2c 2e;47 45 2c;47 45 45;46 2d 45;46 2d 49;46 2c 45;46 2c 45;46 2c 49",
    "fd9a;46 45 4a;46 45 49;4a 45 45;4a 45 45;28 2e 4a;2a 2c 4a;2a 2c 49;2a 2e 4a;2a 2e 49",
    "fda3;2a 45 4a;2a 45 49;2c 45 4a;2c 2d 49;2c 45 49;33 2e 49;35 2d 4a;34 2d 4a;36 2d 4a",
    "fdac;44 2c 4a;44 45 4a;4a 2d 4a;4a 2c 4a;4a 45 4a;45 45 4a;42 45 4a;46 2d 4a;42 45 2d",
    "fdb5;44 2d 45;39 45 4a;43 45 4a;46 2c 2d;45 2e 4a;44 2c 45;43 45 45;44 2c 45;46 2c 2d",
    "fdbe;2c 2d 4a;2d 2c 4a;45 2c 4a;41 45 4a;28 2d 4a;43 45 45;39 2c 45;35 45 45;33 2e 4a",
    "fdc7;46 2c 4a|fdf0;35 44 d2;42 44 d2;27 44 44 47;27 43 28 31;45 2d 45 2f;35 44 39 45",
    "fdf6;31 33 48 44;39 44 4a 47;48 33 44 45;35 44 49|fe71;40 4b|fe77;40 4e;;40 4f;;40 50",
    "fe7d;40 51;;40 52;21;27 53;27 53;27 54;27 54;48 54;48 54;27 55;27 55;4a 54;4a 54;4a 54",
    "fe8c;4a 54;27;27;28;28;28;28;29;29;2a;2a;2a;2a;2b;2b;2b;2b;2c;2c;2c;2c;2d;2d;2d;2d;2e;2e",
    "fea7;2e;2e;2f;2f;30;30;31;31;32;32;33;33;33;33;34;34;34;34;35;35;35;35;36;36;36;36;37;37",
    "fec3;37;37;38;38;38;38;39;39;39;39;3a;3a;3a;3a;41;41;41;41;42;42;42;42;43;43;43;43;44;44",
    "fedf;44;44;45;45;45;45;46;46;46;46;47;47;47;47;48;48;49;49;4a;4a;4a;4a;44 27 53;44 27 53",
    "fef7;44 27 54;44 27 54;44 27 55;44 27 55;44 27;44 27|1ee00;27;28;2c;2f;;48;32;2d;37;4a",
    "1ee0e;33;39;41;35;42;31;34;2a;2b;2e;30;36;38;3a;6e;ba;a1;6f;;28;2c;;47;;;2d;;4a;;;;;33;39",
    "1ee30;41;35;42;;34;2a;2b;2e;;36;;3a|1ee42;2c;;;;;2d;;4a;;44;;46;33;39;;35;42;;34;;;2e;;36",
    "1ee5b;3a;;ba;;6f;;28;2c;;47;;;2d;37;4a;43;;45;46;33;39;41;35;42;;34;2a;2b;2e;;36;38;3a;6e",
    "1ee7e;a1;;27;28;2c;2f;47;48;32;2d;37;4a;;;;;33;39;41;35;42;31;34;2a;2b;2e;30;36;38;3a",
    "1eea1;28;2c;2f;;48;32;2d;37;4a;;;;;33;39;41;35;42;31;34;2a;2b;2e;30;36;38;3a"]).map
    fun (n, letters) => (n, letters.map (0x600 + ·))

/-- The other code points that are decomposed, with their full decompositions. -/
def decompositions : List (Nat × List Nat) :=
  blockRows [
    "aa;61|b5;3bc;;;;;6f|132;49 4a;69 6a|13f;4c b7;6c b7|149;2bc 6e|17f;73|1c4;44 5a 30c",
    "1c5;44 7a 30c;64 7a 30c;4c 4a;4c 6a;6c 6a;4e 4a;4e 6a;6e 6a|1f1;44 5a;44 7a;64 7a|2b0;68",
    "2b1;266;6a;72;279;27b;281;77;79|2e0;263;6c;73;78;295|340;300;301;;313;308 301|374;2b9",
    "387;b7|3d0;3b2;3b8;3a5;;;3c6;3c0|3f0;3ba;3c1;3c2;;398;3b5;;;;3a3|587;565 582|675;627 674",
    "676;648 674;6c7 674;64a 674|958;915 93c;916 93c;917 93c;91c 93c;921 93c;922 93c;92b 93c",
    "95f;92f 93c|9dc;9a1 9bc;9a2 9bc;;9af 9bc|a33;a32 a3c;;;a38 a3c|a59;a16 a3c;a17 a3c;a1c a3c",
    "a5c;;;a2b a3c|b5c;b21 b3c;b22 b3c|e33;e4d e32|eb3;ecd eb2|edc;eab e99;eab ea1|f43;f42 fb7",
    "f4d;f4c fb7;;;;;f51 fb7;;;;;f56 fb7;;;;;f5b fb7|f69;f40 fb5|f73;f71 f72;;f71 f74;fb2 f80",
    "f77;fb2 f71 f80;fb3 f80;fb3 f71 f80|f81;f71 f80|f93;f92 fb7|f9d;f9c fb7;;;;;fa1 fb7",
    "fa7;fa6 fb7;;;;;fab fb7|fb9;f90 fb5|10fc;10dc|1d2c;41;c6;42;;44;45;18e|1d3c;4f;222;50;52",
    "1d40;54;55;57;61;250;251;1d02;62;64;65;259;25b;25c;67;;6b;6d;14b;6f;254;1d16;1d17;70;74;75",
    "1d59;1d1d;26f;76;1d25;;;;3c6;3c7;69;72;75;76;3b2;3b3;3c1;3c6;3c7|1d78;43d|1d9b;252;63;255",
    "1d9e;f0;25c;66;25f;261;265;;;;1d7b;29d;26d;1d85;29f;271;270;;;;;278;282;283;1ab;289;28a",
    "1db8;1d1c;28b;28c;7a;;;;3b8|1e9a;61 2be|1f71;3b1 301;;3b5 301;;3b7 301;;3b9 301;;3bf 301",
    "1f7b;3c5 301;;3c9 301|1fbb;391 301;;;3b9|1fc9;395 301;;397 301|1fd3;3b9 308 301",
    "1fdb;399 301|1fe3;3c5 308 301|1feb;3a5 301|1ff9;39f 301;;3a9 301|2071;69|207f;6e|2090;61",
    "2091;65;6f;78;259;68;;;;;70;73;74|2102;43;;;;;190;;;67;48;48;48;68;127;49;49;4c;6c;;4e",
    "211c;52;52|2124;5a;;3a9;;5a;;4b;41 30a;42;43;;65;45;46;;4d;6f;;;;;69;;;3c0;3b3;393;3a0",
    "2145;44;64;65;69;6a|2160;49;49 49;49 49 49;49 56;56;56 49;56 49 49;56 49 49 49;49 58;58",
    "216a;58 49;58 49 49;4c;43;44;4d;69;69 69;69 69 69;69 76;76;76 69;76 69 69;76 69 69 69",
    "2178;69 78;78;78 69;78 69 69;6c;63;64;6d|2c7c;6a;56|2d6f;2d61|3038;5341;5344;5345",
    "309f;3088 308a|30ff;30b3 30c8|3131;1100;1101;11aa;1102;11ac;11ad|3140;111a;;;;1121",
    "3164;1160;1114;1115;11c7;11c8;11cc;11ce;11d3;11d7;11d9;111c;11dd;11df;111d;111e;1120;1122",
    "3175;1123;1127;1129|317d;1132;1136;1140;1147;114c;11f1;11f2;;;;1184;1185;1188;1191;1192",
    "318c;1194;119e;11a1|a69c;44a;44c|a770;a76f|a7f2;43;46;51;;;;126;153|ab5c;a727;ab37;26b",
    "ab5f;ab52|ab69;28d|fb00;66 66;66 69;66 6c;66 66 69;66 66 6c;73 74;73 74|fb13;574 576",
    "fb14;574 565;574 56b;57e 576;574 56d|fb1d;5d9 5b4;;5f2 5b7;5e2;5d0;5d3;5d4;;;;5e8;5ea",
    "fb2a;5e9 5c1;5e9 5c2;5e9 5bc 5c1;5e9 5bc 5c2;5d0 5b7;5d0 5b8;5d0 5bc;5d1 5bc;5d2 5bc",
    "fb33;5d3 5bc;5d4 5bc;5d5 5bc;5d6 5bc;;5d8 5bc;5d9 5bc;5da 5bc;5db 5bc;5dc 5bc;;5de 5bc",
    "fb40;5e0 5bc;5e1 5bc;;5e3 5bc;5e4 5bc;;5e6 5bc;5e7 5bc;5e8 5bc;5e9 5bc;5ea 5bc;5d5 5b9",
    "fb4c;5d1 5bf;5db 5bf;5e4 5bf;5d0 5dc|fe33;5f;5f|fe4d;5f;5f;5f|ff3f;5f|ff66;30f2;30a1;30a3",
    "ff69;30a5;30a7;30a9;30e3;30e5;30e7;30c3;30fc;30a2;30a4;30a6;30a8;30aa;30ab;30ad;30af;30b1",
    "ff7a;30b3;30b5;30b7;30b9;30bb;30bd;30bf;30c1;30c4;30c6;30c8|ff8b;30d2;30d5;30d8;30db",
    "ff94;30e4;30e6|ff9c;30ef;30f3;3099;309a;1160;1100;1101;11aa;1102;11ac;11ad|ffb0;111a",
    "ffb4;1121|10781;2d0;2d1;e6;299;253;;2a3;ab66;2a5;2a4;256;257;1d91;258;25e;2a9;264;262;260",
    "10794;29b;127;29c;267;284;2aa;2ab;26c;1df04;a78e;26e;1df05;28e;1df06;f8;276;277;71;27a",
    "107a7;1df08;27d;27e;280;2a8;2a6;ab67;2a7;288;2c71;;28f;2a1;2a2;298;;;;1df0a;1df1e|1d49c;41",
    "1d49d;;43;44;;;47;;;4a;4b|1d4bb;66|1d504;41;42|1d538;41;42|1d546;4f|1d6a4;131;237",
    "1d6b9;398|1d6dc;3b5;3b8;3ba;3c6;3c1;3c0|1d6f3;398|1d716;3b5;3b8;3ba;3c6;3c1;3c0|1d72d;398",
    "1d750;3b5;3b8;3ba;3c6;3c1;3c0|1d767;398|1d78a;3b5;3b8;3ba;3c6;3c1;3c0|1d7a1;398|1d7c4;3b5",
    "1d7c5;3b8;3ba;3c6;3c1;3c0;3dc;3dd"]

/-- The ideograph that a code point decomposes into, if it is listed with one. -/
def ideograph? (n : Nat) : Option Nat :=
  ideographs.findSome? fun (first, forms) =>
    if first ≤ n then
      match forms.toList[n - first]? with
      | some ' ' | none => none
      | some form => some form.toNat
    else none

/-- The decomposition of a code point that is neither a syllable nor a composite. -/
def decomposition? (n : Nat) : Option (List Nat) :=
  decompositions.lookup n <|> arabicForms.lookup n <|> ((ideograph? n).map fun form => [form]) <|>
    decompositionRuns.findSome? fun
    | [first, size, form] =>
      if first ≤ n ∧ n < first + size then some [form + (n - first)] else none
    | _ => none

/-- The decomposition of a code point that is not a syllable.  The first part of a composite may
be a composite again, down to the given depth. -/
def decomposeParts : Nat → Nat → List Nat
  | 0, n => (decomposition? n).getD [n]
  | depth + 1, n =>
    match composites.lookup n with
    | some (first :: marks) => decomposeParts depth first ++ marks
    | _ => (decomposition? n).getD [n]

end ContractKit.Text
