import Bindery.Title.Index

/-! The biblical canon with the usual short titles: the table in force where no other is given. -/

namespace Bindery.TitleIndex

def canon : List TitleEntry :=
  [⟨"Genesis", "Genesis", "Gen"⟩,
   ⟨"Exodus", "Exodus", "Exod"⟩,
   ⟨"Leviticus", "Leviticus", "Lev"⟩,
   ⟨"Numbers", "Numbers", "Num"⟩,
   ⟨"Deuteronomy", "Deuteronomy", "Deut"⟩,
   ⟨"Joshua", "Joshua", "Josh"⟩,
   ⟨"Judges", "Judges", "Judg"⟩,
   ⟨"Ruth", "Ruth", "Ruth"⟩,
   ⟨"1 Samuel", "1 Samuel", "1 Sam"⟩,
   ⟨"2 Samuel", "2 Samuel", "2 Sam"⟩,
   ⟨"1 Kings", "1 Kings", "1 Kgs"⟩,
   ⟨"2 Kings", "2 Kings", "2 Kgs"⟩,
   ⟨"1 Chronicles", "1 Chronicles", "1 Chr"⟩,
   ⟨"2 Chronicles", "2 Chronicles", "2 Chr"⟩,
   ⟨"Ezra", "Ezra", "Ezra"⟩,
   ⟨"Nehemiah", "Nehemiah", "Neh"⟩,
   ⟨"Esther", "Esther", "Esth"⟩,
   ⟨"Job", "Job", "Job"⟩,
   ⟨"Psalms", "Psalms", "Ps"⟩,
   ⟨"Proverbs", "Proverbs", "Prov"⟩,
   ⟨"Ecclesiastes", "Ecclesiastes", "Eccl"⟩,
   ⟨"Song of Songs", "Song of Solomon", "Song"⟩,
   ⟨"Isaiah", "Isaiah", "Isa"⟩,
   ⟨"Jeremiah", "Jeremiah", "Jer"⟩,
   ⟨"Lamentations", "Lamentations", "Lam"⟩,
   ⟨"Ezekiel", "Ezekiel", "Ezek"⟩,
   ⟨"Daniel", "Daniel", "Dan"⟩,
   ⟨"Hosea", "Hosea", "Hos"⟩,
   ⟨"Joel", "Joel", "Joel"⟩,
   ⟨"Amos", "Amos", "Amos"⟩,
   ⟨"Obadiah", "Obadiah", "Obad"⟩,
   ⟨"Jonah", "Jonah", "Jonah"⟩,
   ⟨"Micah", "Micah", "Mic"⟩,
   ⟨"Nahum", "Nahum", "Nah"⟩,
   ⟨"Habakkuk", "Habakkuk", "Hab"⟩,
   ⟨"Zephaniah", "Zephaniah", "Zeph"⟩,
   ⟨"Haggai", "Haggai", "Hag"⟩,
   ⟨"Zechariah", "Zechariah", "Zech"⟩,
   ⟨"Malachi", "Malachi", "Mal"⟩,
   ⟨"Tobit", "Tobit", "Tob"⟩,
   ⟨"Judith", "Judith", "Jdt"⟩,
   ⟨"Wisdom", "Wisdom of Solomon", "Wis"⟩,
   ⟨"Sirach", "Sirach", "Sir"⟩,
   ⟨"Baruch", "Baruch", "Bar"⟩,
   ⟨"1 Maccabees", "1 Maccabees", "1 Macc"⟩,
   ⟨"2 Maccabees", "2 Maccabees", "2 Macc"⟩,
   ⟨"Matthew", "Matthew", "Matt"⟩,
   ⟨"Mark", "Mark", "Mark"⟩,
   ⟨"Luke", "Luke", "Luke"⟩,
   ⟨"John", "John", "John"⟩,
   ⟨"Acts", "Acts", "Acts"⟩,
   ⟨"Romans", "Romans", "Rom"⟩,
   ⟨"1 Corinthians", "1 Corinthians", "1 Cor"⟩,
   ⟨"2 Corinthians", "2 Corinthians", "2 Cor"⟩,
   ⟨"Galatians", "Galatians", "Gal"⟩,
   ⟨"Ephesians", "Ephesians", "Eph"⟩,
   ⟨"Philippians", "Philippians", "Phil"⟩,
   ⟨"Colossians", "Colossians", "Col"⟩,
   ⟨"1 Thessalonians", "1 Thessalonians", "1 Thess"⟩,
   ⟨"2 Thessalonians", "2 Thessalonians", "2 Thess"⟩,
   ⟨"1 Timothy", "1 Timothy", "1 Tim"⟩,
   ⟨"2 Timothy", "2 Timothy", "2 Tim"⟩,
   ⟨"Titus", "Titus", "Titus"⟩,
   ⟨"Philemon", "Philemon", "Phlm"⟩,
   ⟨"Hebrews", "Hebrews", "Heb"⟩,
   ⟨"James", "James", "Jas"⟩,
   ⟨"1 Peter", "1 Peter", "1 Pet"⟩,
   ⟨"2 Peter", "2 Peter", "2 Pet"⟩,
   ⟨"1 John", "1 John", "1 John"⟩,
   ⟨"2 John", "2 John", "2 John"⟩,
   ⟨"3 John", "3 John", "3 John"⟩,
   ⟨"Jude", "Jude", "Jude"⟩,
   ⟨"Revelation", "Revelation", "Rev"⟩]

end Bindery.TitleIndex
